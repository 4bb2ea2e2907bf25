import AjarConnectors.Channel.Fanin
import AjarConnectors.Sapient.Registration

namespace DmmModel

open SapientModel

def channelFrames : Nat := 1024

structure DmmCounters where
  registrations : Nat
  badFraming : Nat
  deriving DecidableEq

/-- Why a connection's loop returned. -/
inductive Return where
  | read (e : ReadError)
  | readFailed
  | ackFailed
  /-- The source is gone, so `send` fails. -/
  | refused
  deriving DecidableEq

/-- The `await` at which a connection's loop stands. -/
inductive Phase where
  | reading
  | acking (payload ack : Bytes)
  | sending (payload : Bytes)
  | ended (why : Return)
  deriving DecidableEq

/-- A connection: what it has of the peer's bytes, its loop, and the acknowledgements written to the peer. -/
structure Connection where
  stream : Stream
  phase : Phase
  acks : List Bytes
  deriving DecidableEq

inductive Turn (τ : Type*) where
  /-- The loop is polled at its read: a read of the socket completes with up to `n + 1` bytes, and `now` is the
      clock should it build an acknowledgement. -/
  | poll (n : Nat) (now : τ)
  | readFails
  | ackWritten (ok : Bool)

variable {τ : Type*} (decode : Bytes → Option Message) (encode : τ → Message → Bytes) (nodeId : String)

/-- `registration_ack`. `encode` writes the message with its timestamp. -/
def registrationAck (now : τ) (payload : Bytes) : Option Bytes :=
  match decode payload with
  | none => none
  | some message =>
    if message.content = some .registration then
      some (frame (encode now ⟨some (.registrationAck ⟨some true, []⟩), some nodeId, message.nodeId⟩))
    else none

/-- A poll of `read_frame`, from its top or from its `await`. -/
def Connection.poll (conn : Connection) (n : Nat) : Stream × Option Result :=
  if conn.stream.waiting then conn.stream.step (.wake n) else conn.stream.step .call

/-- A turn of `connection_loop`, up to its next `await`. -/
def Connection.turn (counters : DmmCounters) (conn : Connection) : Turn τ → DmmCounters × Connection
  | .poll n now => match conn.phase with
    | .reading => match conn.poll n with
      | (stream, none) => (counters, { conn with stream := stream })
      | (stream, some (.error (.tooLong declared))) =>
        ({ counters with badFraming := counters.badFraming + 1 },
          { conn with stream := stream, phase := .ended (.read (.tooLong declared)) })
      | (stream, some (.error .closed)) => (counters, { conn with stream := stream, phase := .ended (.read .closed) })
      | (stream, some (.ok payload)) =>
        (counters, { conn with stream := stream, phase := match registrationAck decode encode nodeId now payload with
          | some ack => .acking payload ack
          | none => .sending payload })
    | _ => (counters, conn)
  | .readFails => match conn.phase with
    | .reading => (counters, { conn with phase := .ended .readFailed })
    | _ => (counters, conn)
  | .ackWritten ok => match conn.phase with
    | .acking payload ack =>
      if ok then
        ({ counters with registrations := counters.registrations + 1 },
          { conn with phase := .sending payload, acks := conn.acks ++ [ack] })
      else (counters, { conn with phase := .ended .ackFailed })
    | _ => (counters, conn)

/-- `connection_loop` on the bytes the peer will have sent, as a task that sends payloads. -/
def connectionLoop : Channel.Task Bytes DmmCounters Connection (Turn τ) Bytes where
  start wire := ⟨⟨wire, [], false⟩, .reading, []⟩
  step := Connection.turn decode encode nodeId
  offer conn := match conn.phase with
    | .sending payload => some payload
    | _ => none
  sent conn := { conn with phase := .reading }
  refused conn := { conn with phase := .ended .refused }

/-- The source with its connections: `DmmSource` and the tasks it has spawned. -/
abbrev DmmSource := Channel.World DmmCounters Connection Bytes

abbrev Event (τ : Type*) := Channel.Event Bytes (Turn τ)

/-- The source after a run of its accept loop, its connections and the runtime's `recv` calls. -/
def run (events : List (Event τ)) : DmmSource :=
  events.foldl (Channel.World.apply (connectionLoop decode encode nodeId) channelFrames) (Channel.World.start ⟨0, 0⟩)

/-- What `recv` leaves of a frame in a buffer of `size` bytes. -/
def recvInto (size : Nat) (payload : Bytes) : Bytes := payload.take (min payload.length size)

end DmmModel

namespace DmmProof

open SapientModel SapientProof DmmModel

/-- The payloads the bytes hold from the front, and what is left over. -/
def unframeAll : Nat → Bytes → List Bytes × Bytes
  | 0, data => ([], data)
  | fuel + 1, data => match unframe data with
    | .ok (payload, rest) => (payload :: (unframeAll fuel rest).1, (unframeAll fuel rest).2)
    | .error _ => ([], data)

/-- The payloads a connection's bytes carry, and where its reading ends. -/
def carried (wire : Bytes) : List Bytes × Bytes := unframeAll wire.length wire

theorem unframe_rest {held payload rest : Bytes} (found : unframe held = .ok (payload, rest)) :
    rest = held.drop (prefixLen + payload.length) ∧ payload.length ≤ maxMessageLen := by
  have whole := unframe_ok found
  rw [unframe_eq] at found
  split at found
  · cases found
  · split at found
    · cases found
    · rename_i n _ small
      split at found
      · cases found
      · rename_i present
        rw [List.splitAt_eq, Except.ok.injEq, Prod.mk.injEq] at found
        have length : payload.length = n := by
          rw [← found.1, List.length_take, List.length_drop]
          omega
        rw [← found.2, List.drop_drop, length]
        exact ⟨rfl, Nat.not_lt.mp small⟩

theorem unframe_length {data payload rest : Bytes} (found : unframe data = .ok (payload, rest)) :
    rest.length < data.length := by
  rw [(unframe_rest found).1]
  exact unframe_shorter found

theorem unframeAll_enough (data : Bytes) (fuel more : Nat) (enough : data.length ≤ fuel) :
    unframeAll (fuel + more) data = unframeAll fuel data := by
  induction fuel generalizing data with
  | zero =>
    have empty : data = [] := List.eq_nil_of_length_eq_zero (Nat.le_zero.mp enough)
    cases more with
    | zero => rfl
    | succ more => rw [Nat.zero_add, empty]; rfl
  | succ fuel ih =>
    rw [Nat.add_right_comm, unframeAll, unframeAll]
    split
    · rename_i payload rest found
      have shorter := unframe_length found
      rw [ih rest (by omega)]
    · rfl

theorem carried_ok {data payload rest : Bytes} (found : unframe data = .ok (payload, rest)) :
    carried data = (payload :: (carried rest).1, (carried rest).2) := by
  have shorter := unframe_length found
  obtain ⟨fuel, same⟩ : ∃ fuel, data.length = fuel + 1 := ⟨data.length - 1, by omega⟩
  have enough := unframeAll_enough rest rest.length (fuel - rest.length) (Nat.le_refl _)
  rw [Nat.add_sub_cancel' (by omega)] at enough
  rw [carried, same, unframeAll, found]
  dsimp only
  rw [enough]
  rfl

theorem carried_error {data : Bytes} {e : FrameError} (found : unframe data = .error e) : carried data = ([], data) := by
  rw [carried]
  cases data with
  | nil => rfl
  | cons b data =>
    rw [List.length_cons, unframeAll, found]

theorem unframe_frame {payload : Bytes} (fits : payload.length ≤ maxMessageLen) (rest : Bytes) :
    unframe (frame payload ++ rest) = .ok (payload, rest) := by
  have whole : frame payload ++ rest ++ [] = frame payload ++ rest := List.append_nil _
  obtain ⟨_, more⟩ | ⟨more, found, after⟩ := unframe_next fits whole
  · exact absurd rfl more
  · rw [List.append_nil] at after
    rw [found, (unframe_rest found).1, after]

theorem unframe_append {held payload rest : Bytes} (found : unframe held = .ok (payload, rest)) (more : Bytes) :
    unframe (held ++ more) = .ok (payload, rest ++ more) := by
  have same := unframe_rest found
  rw [unframe_ok found, List.append_assoc, unframe_frame same.2, same.1]

theorem tooLong_append {held : Bytes} {n : Nat} (found : unframe held = .error (.tooLong n)) (more : Bytes) :
    unframe (held ++ more) = .error (.tooLong n) := by
  rw [unframe_eq] at found ⊢
  split at found
  · cases found
  · rename_i m declared
    rw [Framing.LengthPrefix.declared_append _ m declared]
    split at found
    · rename_i above
      cases found
      dsimp only
      rw [if_pos above]
    · split at found <;> cases found

/-- Well-formed frames are what a connection's bytes carry, whatever cannot be a frame follows them. -/
theorem carried_frames (payloads : List Bytes) (tail : Bytes) {e : FrameError}
    (fits : ∀ payload ∈ payloads, payload.length ≤ maxMessageLen) (ends : unframe tail = .error e) :
    carried (payloads.flatMap frame ++ tail) = (payloads, tail) := by
  induction payloads with
  | nil => exact carried_error ends
  | cons payload payloads ih =>
    rw [List.flatMap_cons, List.append_assoc, carried_ok (unframe_frame (fits payload List.mem_cons_self) _),
      ih fun later member => fits later (List.mem_cons_of_mem _ member)]

/-- What a connection has still to read. -/
def unread (s : Stream) : Bytes := s.held ++ s.wire

/-- Everything `read_frame` can do from its top. -/
inductive Advanced (s : Stream) : Stream → Option Result → Prop where
  | frame {s' : Stream} {payload : Bytes} (found : unframe (unread s) = .ok (payload, unread s'))
      (wire : s'.wire = s.wire) (top : s'.waiting = false) : Advanced s s' (some (.ok payload))
  | tooLong {s' : Stream} {n : Nat} (found : unframe (unread s) = .error (.tooLong n)) :
      Advanced s s' (some (.error (.tooLong n)))
  | waits {s' : Stream} (short : Short s.held) (same : s' = { s with waiting := true }) : Advanced s s' none

theorem advance_advanced (s : Stream) : Advanced s s.advance.1 s.advance.2 := by
  unfold Stream.advance
  cases found : unframe s.held with
  | ok taken =>
    refine .frame ?_ rfl rfl
    rw [unread, unframe_append found, (unframe_rest found).1]
    rfl
  | error e =>
    cases e with
    | needPrefix => exact .waits (Or.inl found) rfl
    | tooLong n => exact .tooLong (tooLong_append found _)
    | incomplete declared present => exact .waits (Or.inr ⟨declared, present, found⟩) rfl

/-- Everything a poll can do: it reads on or ends, and loses nothing. -/
inductive Polled (s : Stream) : Stream → Option Result → Prop where
  | frame {s' : Stream} {payload : Bytes} (found : unframe (unread s) = .ok (payload, unread s'))
      (wire : s'.wire.length ≤ s.wire.length) (top : s'.waiting = false) : Polled s s' (some (.ok payload))
  | tooLong {s' : Stream} {n : Nat} (found : unframe (unread s) = .error (.tooLong n)) :
      Polled s s' (some (.error (.tooLong n)))
  | closed {s' : Stream} (waiting : s.waiting = true) (empty : s.wire = []) : Polled s s' (some (.error .closed))
  | waits {s' : Stream} (same : unread s' = unread s) (short : Short s'.held) (waiting : s'.waiting = true)
      (progress : s.waiting = true → s'.wire.length < s.wire.length) (wire : s'.wire.length ≤ s.wire.length) :
      Polled s s' none

theorem poll_polled (conn : Connection) (n : Nat) : Polled conn.stream (conn.poll n).1 (conn.poll n).2 := by
  unfold Connection.poll
  cases waiting : conn.stream.waiting with
  | false =>
    have call : conn.stream.step .call = conn.stream.advance := if_neg (by rw [waiting]; decide)
    rw [if_neg (by decide), call]
    have advanced := advance_advanced conn.stream
    generalize conn.stream.advance = outcome at advanced ⊢
    obtain ⟨s', result⟩ := outcome
    cases advanced with
    | frame found wire top => exact .frame found (Nat.le_of_eq (congrArg List.length wire)) top
    | tooLong found => exact .tooLong found
    | waits short same =>
      rw [same]
      exact .waits rfl short rfl (fun impossible => by rw [waiting] at impossible; cases impossible) (Nat.le_refl _)
  | true =>
    rw [if_pos rfl, Stream.step, if_pos waiting]
    dsimp only
    split
    · rename_i nothing
      refine .closed waiting ?_
      obtain zero | empty := List.take_eq_nil_iff.mp nothing
      · omega
      · exact empty
    · rename_i filled
      have fewer : (conn.stream.receive (min (n + 1) 8192)).wire.length < conn.stream.wire.length := by
        have some_bytes : conn.stream.wire ≠ [] := fun empty => filled (by rw [empty, List.take_nil])
        have positive := List.length_pos_of_ne_nil some_bytes
        rw [Stream.receive, List.length_drop]
        omega
      have same : unread (conn.stream.receive (min (n + 1) 8192)) = unread conn.stream := by
        rw [unread, unread, Stream.receive, List.append_assoc, List.take_append_drop]
      have advanced := advance_advanced (conn.stream.receive (min (n + 1) 8192))
      generalize Stream.advance (conn.stream.receive (min (n + 1) 8192)) = outcome at advanced ⊢
      obtain ⟨s', result⟩ := outcome
      cases advanced with
      | frame found wire top =>
        rw [same] at found
        exact .frame found (by rw [wire]; exact Nat.le_of_lt fewer) top
      | tooLong found =>
        rw [same] at found
        exact .tooLong found
      | waits short again =>
        rw [again]
        exact .waits same short rfl (fun _ => fewer) (Nat.le_of_lt fewer)

section

variable {τ : Type*} (decode : Bytes → Option Message) (encode : τ → Message → Bytes) (nodeId : String)

def registers (payload : Bytes) : Bool :=
  match decode payload with
  | none => false
  | some message => decide (message.content = some .registration)

/-- `acks` answers the registrations among the payloads, each once and in order. -/
def Answered (payloads acks : List Bytes) : Prop :=
  List.Forall₂ (fun payload ack => ∃ now, registrationAck decode encode nodeId now payload = some ack)
    (payloads.filter (registers decode)) acks

/-- Reading ends at what no frame starts with. -/
def EndsAt (tail : Bytes) : ReadError → Prop
  | .closed => Short tail
  | .tooLong n => unframe tail = .error (.tooLong n)

/-- After the payloads `done`, the rest is still to be read. -/
def Remaining (wire : Bytes) (conn : Connection) (done : List Bytes) : Prop :=
  carried wire = (done ++ (carried (unread conn.stream)).1, (carried (unread conn.stream)).2)

/-- What a connection started on `wire` has done with it once it has sent `out`. -/
def Serves (wire : Bytes) (conn : Connection) (out : List Bytes) : Prop :=
  match conn.phase with
  | .reading => Remaining wire conn out ∧ Answered decode encode nodeId out conn.acks ∧
      (conn.stream.waiting = true → Short conn.stream.held)
  | .acking payload ack => Remaining wire conn (out ++ [payload]) ∧ Answered decode encode nodeId out conn.acks ∧
      conn.stream.waiting = false ∧ registers decode payload = true ∧
      ∃ now, registrationAck decode encode nodeId now payload = some ack
  | .sending payload => Remaining wire conn (out ++ [payload]) ∧
      Answered decode encode nodeId (out ++ [payload]) conn.acks ∧ conn.stream.waiting = false
  | .ended (.read e) => (carried wire).1 = out ∧ Answered decode encode nodeId out conn.acks ∧ EndsAt (carried wire).2 e
  | .ended .readFailed | .ended .ackFailed =>
    out <+: (carried wire).1 ∧ Answered decode encode nodeId out conn.acks
  | .ended .refused => ∃ payload, out ++ [payload] <+: (carried wire).1 ∧
      Answered decode encode nodeId (out ++ [payload]) conn.acks

variable {decode encode nodeId}

theorem registrationAck_some {now : τ} {payload ack : Bytes}
    (answers : registrationAck decode encode nodeId now payload = some ack) : registers decode payload = true := by
  unfold registrationAck at answers
  unfold registers
  cases found : decode payload with
  | none =>
    rw [found] at answers
    cases answers
  | some message =>
    rw [found] at answers
    dsimp only at answers ⊢
    split at answers
    · rename_i registration
      exact decide_eq_true registration
    · cases answers

theorem registrationAck_none {now : τ} {payload : Bytes}
    (silent : registrationAck decode encode nodeId now payload = none) : registers decode payload = false := by
  unfold registrationAck at silent
  unfold registers
  cases found : decode payload with
  | none => rfl
  | some message =>
    rw [found] at silent
    dsimp only at silent ⊢
    split at silent
    · cases silent
    · rename_i other
      exact decide_eq_false other

theorem Answered.silent {payloads acks : List Bytes} {payload : Bytes}
    (answered : Answered decode encode nodeId payloads acks) (other : registers decode payload = false) :
    Answered decode encode nodeId (payloads ++ [payload]) acks := by
  unfold Answered at answered ⊢
  rw [List.filter_append, List.filter_singleton, other]
  rwa [cond_false, List.append_nil]

theorem Answered.answer {payloads acks : List Bytes} {payload ack : Bytes}
    (answered : Answered decode encode nodeId payloads acks) (registration : registers decode payload = true)
    (answers : ∃ now, registrationAck decode encode nodeId now payload = some ack) :
    Answered decode encode nodeId (payloads ++ [payload]) (acks ++ [ack]) := by
  unfold Answered at answered ⊢
  rw [List.filter_append, List.filter_singleton, registration, cond_true]
  exact List.rel_append answered (.cons answers .nil)

theorem Answered.length {payloads acks : List Bytes} (answered : Answered decode encode nodeId payloads acks) :
    acks.length = payloads.countP (registers decode) := by
  rw [List.countP_eq_length_filter]
  exact (List.Forall₂.length_eq answered).symm

theorem Remaining.next {wire payload : Bytes} {conn conn' : Connection} {out : List Bytes}
    (remaining : Remaining wire conn out) (found : unframe (unread conn.stream) = .ok (payload, unread conn'.stream)) :
    Remaining wire conn' (out ++ [payload]) := by
  unfold Remaining at remaining ⊢
  rw [remaining, carried_ok found, List.append_assoc]
  rfl

theorem Remaining.last {wire : Bytes} {conn : Connection} {out : List Bytes} {e : FrameError}
    (remaining : Remaining wire conn out) (found : unframe (unread conn.stream) = .error e) :
    (carried wire).1 = out ∧ (carried wire).2 = unread conn.stream := by
  unfold Remaining at remaining
  rw [remaining, carried_error found]
  exact ⟨List.append_nil _, rfl⟩

theorem Remaining.front {wire : Bytes} {conn : Connection} {out : List Bytes} (remaining : Remaining wire conn out) :
    out <+: (carried wire).1 := by
  unfold Remaining at remaining
  rw [remaining]
  exact List.prefix_append _ _

/-- Everything a turn can do to the counters and its connection. -/
inductive Turned (decode : Bytes → Option Message) (encode : τ → Message → Bytes) (nodeId : String)
    (counters : DmmCounters) (conn : Connection) (turn : Turn τ) : DmmCounters → Connection → Prop where
  | idle (reading : conn.phase = .reading → ∀ n now, turn ≠ .poll n now)
      (acking : ∀ payload ack, conn.phase = .acking payload ack → ∀ ok, turn ≠ .ackWritten ok) :
      Turned decode encode nodeId counters conn turn counters conn
  | waits {stream : Stream} (reading : conn.phase = .reading) (same : unread stream = unread conn.stream)
      (short : Short stream.held) (waiting : stream.waiting = true)
      (progress : conn.stream.waiting = true → stream.wire.length < conn.stream.wire.length)
      (wire : stream.wire.length ≤ conn.stream.wire.length) :
      Turned decode encode nodeId counters conn turn counters { conn with stream := stream }
  | tooLong {stream : Stream} {n : Nat} (reading : conn.phase = .reading)
      (found : unframe (unread conn.stream) = .error (.tooLong n)) :
      Turned decode encode nodeId counters conn turn { counters with badFraming := counters.badFraming + 1 }
        { conn with stream := stream, phase := .ended (.read (.tooLong n)) }
  | closed {stream : Stream} (reading : conn.phase = .reading) (waiting : conn.stream.waiting = true)
      (empty : conn.stream.wire = []) :
      Turned decode encode nodeId counters conn turn counters
        { conn with stream := stream, phase := .ended (.read .closed) }
  | forwards {stream : Stream} {payload : Bytes} (reading : conn.phase = .reading)
      (found : unframe (unread conn.stream) = .ok (payload, unread stream))
      (wire : stream.wire.length ≤ conn.stream.wire.length) (top : stream.waiting = false)
      (other : registers decode payload = false) :
      Turned decode encode nodeId counters conn turn counters
        { conn with stream := stream, phase := .sending payload }
  | answers {stream : Stream} {payload ack : Bytes} (reading : conn.phase = .reading)
      (found : unframe (unread conn.stream) = .ok (payload, unread stream))
      (wire : stream.wire.length ≤ conn.stream.wire.length) (top : stream.waiting = false)
      (registration : registers decode payload = true)
      (ack_of : ∃ now, registrationAck decode encode nodeId now payload = some ack) :
      Turned decode encode nodeId counters conn turn counters
        { conn with stream := stream, phase := .acking payload ack }
  | fails (reading : conn.phase = .reading) (failed : turn = .readFails) :
      Turned decode encode nodeId counters conn turn counters { conn with phase := .ended .readFailed }
  | acked {payload ack : Bytes} (acking : conn.phase = .acking payload ack) :
      Turned decode encode nodeId counters conn turn { counters with registrations := counters.registrations + 1 }
        { conn with phase := .sending payload, acks := conn.acks ++ [ack] }
  | ackFails {payload ack : Bytes} (acking : conn.phase = .acking payload ack) (failed : turn = .ackWritten false) :
      Turned decode encode nodeId counters conn turn counters { conn with phase := .ended .ackFailed }

variable (decode encode nodeId) in
theorem turn_turned (counters : DmmCounters) (conn : Connection) (turn : Turn τ) :
    Turned decode encode nodeId counters conn turn (conn.turn decode encode nodeId counters turn).1
      (conn.turn decode encode nodeId counters turn).2 := by
  unfold Connection.turn
  cases turn with
  | poll n now =>
    cases phase : conn.phase with
    | acking payload ack => exact .idle (by simp [phase]) (by simp)
    | sending payload => exact .idle (by simp [phase]) (by simp)
    | ended why => exact .idle (by simp [phase]) (by simp)
    | reading =>
      have polled := poll_polled conn n
      dsimp only
      generalize conn.poll n = outcome at polled ⊢
      obtain ⟨stream, result⟩ := outcome
      cases polled with
      | waits same short waiting progress wire =>
        have kept : Turned decode encode nodeId counters conn (.poll n now) counters _ :=
          .waits phase same short waiting progress wire
        simpa [phase] using kept
      | tooLong found => exact .tooLong phase found
      | closed waiting empty => exact .closed phase waiting empty
      | @frame payload found wire top =>
        dsimp only
        cases answers : registrationAck decode encode nodeId now payload with
        | none => exact .forwards phase found wire top (registrationAck_none answers)
        | some ack => exact .answers phase found wire top (registrationAck_some answers) ⟨now, answers⟩
  | readFails =>
    cases phase : conn.phase with
    | reading => exact .fails phase rfl
    | acking payload ack => exact .idle (by simp [phase]) (by simp)
    | sending payload => exact .idle (by simp [phase]) (by simp)
    | ended why => exact .idle (by simp [phase]) (by simp)
  | ackWritten ok =>
    cases phase : conn.phase with
    | reading => exact .idle (by simp) (by simp [phase])
    | sending payload => exact .idle (by simp) (by simp [phase])
    | ended why => exact .idle (by simp) (by simp [phase])
    | acking payload ack =>
      cases ok with
      | true => exact .acked phase
      | false => exact .ackFails phase rfl

/-- A turn keeps the account of its connection. -/
theorem Serves.turn {wire : Bytes} {conn : Connection} {out : List Bytes}
    (serves : Serves decode encode nodeId wire conn out) (counters : DmmCounters) (turn : Turn τ) :
    Serves decode encode nodeId wire (conn.turn decode encode nodeId counters turn).2 out := by
  have turned := turn_turned decode encode nodeId counters conn turn
  generalize conn.turn decode encode nodeId counters turn = outcome at turned ⊢
  obtain ⟨counters', conn'⟩ := outcome
  have before := serves
  unfold Serves at serves
  cases turned with
  | idle _ _ => exact before
  | waits reading same short waiting progress less =>
    rw [reading] at serves
    have kept := serves.1
    unfold Remaining at kept
    unfold Serves
    dsimp only
    rw [reading]
    refine ⟨?_, serves.2.1, fun _ => short⟩
    unfold Remaining
    dsimp only
    rwa [same]
  | tooLong reading found =>
    rw [reading] at serves
    have whole := serves.1.last found
    refine ⟨whole.1, serves.2.1, ?_⟩
    rw [whole.2]
    exact found
  | closed reading waiting empty =>
    rw [reading] at serves
    have same : unread conn.stream = conn.stream.held := by rw [unread, empty, List.append_nil]
    have short := serves.2.2 waiting
    have ends : (carried wire).1 = out ∧ (carried wire).2 = conn.stream.held := by
      rw [← same]
      obtain need | ⟨declared, present, need⟩ := short
      · exact serves.1.last (by rw [same]; exact need)
      · exact serves.1.last (by rw [same]; exact need)
    refine ⟨ends.1, serves.2.1, ?_⟩
    rw [ends.2]
    exact short
  | forwards reading found less top other =>
    rw [reading] at serves
    exact ⟨serves.1.next found, serves.2.1.silent other, top⟩
  | answers reading found less top registration ack_of =>
    rw [reading] at serves
    exact ⟨serves.1.next found, serves.2.1, top, registration, ack_of⟩
  | fails reading failed =>
    rw [reading] at serves
    exact ⟨serves.1.front, serves.2.1⟩
  | acked acking =>
    rw [acking] at serves
    obtain ⟨remaining, answered, top, registration, ack_of⟩ := serves
    exact ⟨remaining, answered.answer registration ack_of, top⟩
  | ackFails acking failed =>
    rw [acking] at serves
    refine ⟨?_, serves.2.1⟩
    exact (List.prefix_append _ _).trans serves.1.front

variable (decode encode nodeId) in
theorem serves_keeps (allowed : Event τ → Prop) :
    Channel.Keeps (connectionLoop decode encode nodeId) allowed (Serves decode encode nodeId) where
  start wire := by
    refine ⟨?_, .nil, fun impossible => by cases impossible⟩
    unfold Remaining
    rfl
  turn _ input _ _ counters _ _ serves := serves.turn counters input
  sent wire conn payload out serves offered := by
    unfold connectionLoop at offered ⊢
    unfold Serves at serves
    cases phase : conn.phase with
    | reading => simp [phase] at offered
    | acking payload ack => simp [phase] at offered
    | ended why => simp [phase] at offered
    | sending held =>
      simp only [phase, Option.some.injEq] at offered
      subst offered
      rw [phase] at serves
      exact ⟨serves.1, serves.2.1, fun impossible => by rw [serves.2.2] at impossible; cases impossible⟩
  refused _ wire conn payload out serves offered := by
    unfold connectionLoop at offered ⊢
    unfold Serves at serves
    cases phase : conn.phase with
    | reading => simp [phase] at offered
    | acking payload ack => simp [phase] at offered
    | ended why => simp [phase] at offered
    | sending held =>
      rw [phase] at serves
      exact ⟨held, serves.1.front, serves.2.1⟩

/-- No read and no acknowledgement fails, and the source is not dropped. -/
def Undisturbed : Event τ → Prop
  | .turn _ .readFails | .turn _ (.ackWritten false) | .dropReceiver => False
  | _ => True

/-- A connection that has ended did so at the end of what it could read. -/
def ReadOut (conn : Connection) : Prop := ∀ why, conn.phase = .ended why → ∃ e, why = .read e

theorem ReadOut.turn {conn : Connection} (out : ReadOut conn) (counters : DmmCounters) {turn : Turn τ}
    (reads : turn ≠ .readFails) (writes : turn ≠ .ackWritten false) :
    ReadOut (conn.turn decode encode nodeId counters turn).2 := by
  have turned := turn_turned decode encode nodeId counters conn turn
  generalize conn.turn decode encode nodeId counters turn = outcome at turned ⊢
  obtain ⟨counters', conn'⟩ := outcome
  intro why ended
  cases turned with
  | idle _ _ => exact out why ended
  | waits reading same short waiting progress less => exact out why ended
  | tooLong reading found =>
    cases ended
    exact ⟨_, rfl⟩
  | closed reading waiting empty =>
    cases ended
    exact ⟨_, rfl⟩
  | forwards reading found less top other => cases ended
  | answers reading found less top registration ack_of => cases ended
  | fails reading failed => exact absurd failed reads
  | acked acking => cases ended
  | ackFails acking failed => exact absurd failed writes

variable (decode encode nodeId) in
theorem undisturbed_keeps :
    Channel.Keeps (connectionLoop decode encode nodeId) Undisturbed
      fun wire conn out => Serves decode encode nodeId wire conn out ∧ ReadOut conn where
  start wire := by
    refine ⟨(serves_keeps decode encode nodeId fun _ => True).start wire, ?_⟩
    intro why ended
    cases ended
  turn _ input may _ counters _ _ kept := by
    refine ⟨kept.1.turn counters input, kept.2.turn counters ?_ ?_⟩
    · intro fails
      rw [fails] at may
      exact may
    · intro fails
      rw [fails] at may
      exact may
  sent wire conn payload out kept offered := by
    refine ⟨(serves_keeps decode encode nodeId fun _ => True).sent wire conn payload out kept.1 offered, ?_⟩
    intro why ended
    cases ended
  refused impossible := impossible.elim

def weight (conn : Connection) : Nat :=
  match conn.phase with
  | .reading => 1 + (if conn.stream.waiting then 0 else 1) + conn.stream.wire.length + (unread conn.stream).length
  | .acking _ _ => 4 + conn.stream.wire.length + (unread conn.stream).length
  | .sending _ => 3 + conn.stream.wire.length + (unread conn.stream).length
  | .ended _ => 0

theorem unframe_size {data payload rest : Bytes} (found : unframe data = .ok (payload, rest)) :
    data.length = prefixLen + payload.length + rest.length := by
  have whole := congrArg List.length (unframe_ok found)
  rw [List.length_append, ← (unframe_rest found).1, frame_eq_encode, Framing.LengthPrefix.encode_length] at whole
  exact whole

variable (decode encode nodeId) in
/-- A turn that changes anything lowers the weight; only a turn of another kind changes nothing. -/
theorem turn_lowers (counters : DmmCounters) (conn : Connection) (turn : Turn τ) :
    (conn.turn decode encode nodeId counters turn = (counters, conn) ∧
        (conn.phase = .reading → ∀ n now, turn ≠ .poll n now) ∧
        ∀ payload ack, conn.phase = .acking payload ack → ∀ ok, turn ≠ .ackWritten ok) ∨
      weight (conn.turn decode encode nodeId counters turn).2 < weight conn := by
  have turned := turn_turned decode encode nodeId counters conn turn
  have four : prefixLen = 4 := rfl
  generalize conn.turn decode encode nodeId counters turn = outcome at turned ⊢
  obtain ⟨counters', conn'⟩ := outcome
  dsimp only at turned ⊢
  cases turned with
  | idle reading acking => exact Or.inl ⟨rfl, reading, acking⟩
  | waits reading same short waiting progress less =>
    right
    simp only [weight, reading, waiting, same, if_true]
    cases before : conn.stream.waiting with
    | true =>
      have fewer := progress before
      rw [if_pos rfl]
      omega
    | false =>
      rw [if_neg (by decide)]
      omega
  | tooLong reading found =>
    right
    simp only [weight, reading]
    omega
  | closed reading waiting empty =>
    right
    simp only [weight, reading]
    omega
  | forwards reading found less top other =>
    have size := unframe_size found
    right
    simp only [weight, reading]
    omega
  | answers reading found less top registration ack_of =>
    have size := unframe_size found
    right
    simp only [weight, reading]
    omega
  | fails reading failed =>
    right
    simp only [weight, reading]
    omega
  | acked acking =>
    right
    simp only [weight, acking]
    omega
  | ackFails acking failed =>
    right
    simp only [weight, acking]
    omega

/-- The turns a fair schedule gives: polls, and writes of acknowledgements that complete. -/
def turnKinds : List (Turn τ → Prop) := [fun turn => ∃ n now, turn = .poll n now, fun turn => ∃ ok, turn = .ackWritten ok]

theorem connectionLoop_terminates :
    Channel.Terminates (connectionLoop decode encode nodeId) weight (turnKinds (τ := τ)) where
  turn counters conn turn := by
    obtain ⟨same, _⟩ | lower := turn_lowers decode encode nodeId counters conn turn
    · exact Or.inl same
    · exact Or.inr lower
  sent conn payload offered := by
    unfold connectionLoop at offered ⊢
    cases phase : conn.phase with
    | reading => simp [phase] at offered
    | acking payload ack => simp [phase] at offered
    | ended why => simp [phase] at offered
    | sending held =>
      simp only [weight, phase]
      split <;> omega
  refused conn payload offered := by
    unfold connectionLoop at offered ⊢
    cases phase : conn.phase with
    | reading => simp [phase] at offered
    | acking payload ack => simp [phase] at offered
    | ended why => simp [phase] at offered
    | sending held =>
      simp only [weight, phase]
      omega
  awake counters conn silent still := by
    have moved : ∀ turn : Turn τ, conn.turn decode encode nodeId counters turn = (counters, conn) →
        (conn.phase = .reading → ∀ n now, turn ≠ .poll n now) ∧
        ∀ payload ack, conn.phase = .acking payload ack → ∀ ok, turn ≠ .ackWritten ok := by
      intro turn same
      obtain idle | lower := turn_lowers decode encode nodeId counters conn turn
      · exact idle.2
      · rw [same] at lower
        exact absurd lower (Nat.lt_irrefl _)
    cases phase : conn.phase with
    | reading =>
      obtain ⟨_, ⟨n, now, rfl⟩, same⟩ := still _ (List.mem_cons_self)
      exact absurd rfl ((moved (.poll n now) same).1 phase n now)
    | acking payload ack =>
      obtain ⟨_, ⟨ok, rfl⟩, same⟩ := still _ (List.mem_cons_of_mem _ List.mem_cons_self)
      exact absurd rfl ((moved (.ackWritten ok) same).2 payload ack phase ok)
    | sending payload =>
      unfold connectionLoop at silent
      simp [phase] at silent
    | ended why =>
      simp only [weight, phase]

/-- The loop returned at a frame above the size bound. -/
def brokeFraming (conn : Connection) : Bool :=
  match conn.phase with
  | .ended (.read (.tooLong _)) => true
  | _ => false

/-- A turn that counts a registration has written its acknowledgement. -/
theorem turn_registrations (counters : DmmCounters) (conn : Connection) (turn : Turn τ) :
    (conn.turn decode encode nodeId counters turn).1.registrations + conn.acks.length =
      counters.registrations + (conn.turn decode encode nodeId counters turn).2.acks.length := by
  have turned := turn_turned decode encode nodeId counters conn turn
  generalize conn.turn decode encode nodeId counters turn = outcome at turned ⊢
  obtain ⟨counters', conn'⟩ := outcome
  cases turned with
  | acked acking =>
    dsimp only
    rw [List.length_append, List.length_singleton]
    omega
  | _ => rfl

/-- A turn that counts a bad frame ends its connection at it. -/
theorem turn_badFraming (counters : DmmCounters) (conn : Connection) (turn : Turn τ) :
    (conn.turn decode encode nodeId counters turn).1.badFraming + (brokeFraming conn).toNat =
      counters.badFraming + (brokeFraming (conn.turn decode encode nodeId counters turn).2).toNat := by
  have turned := turn_turned decode encode nodeId counters conn turn
  generalize conn.turn decode encode nodeId counters turn = outcome at turned ⊢
  obtain ⟨counters', conn'⟩ := outcome
  cases turned with
  | tooLong reading found => simp [brokeFraming, reading]
  | idle _ _ => rfl
  | waits reading same short waiting progress less => simp [brokeFraming, reading]
  | closed reading waiting empty => simp [brokeFraming, reading]
  | forwards reading found less top other => simp [brokeFraming, reading]
  | answers reading found less top registration ack_of => simp [brokeFraming, reading]
  | fails reading failed => simp [brokeFraming, reading]
  | acked acking => simp [brokeFraming, acking]
  | ackFails acking failed => simp [brokeFraming, acking]

theorem counters_counted (events : List (Event τ)) :
    (run decode encode nodeId events).shared.registrations =
        ((run decode encode nodeId events).tasks.map fun conn => conn.acks.length).sum ∧
      (run decode encode nodeId events).shared.badFraming =
        ((run decode encode nodeId events).tasks.map fun conn => (brokeFraming conn).toNat).sum := by
  have sends : ∀ conn payload, (connectionLoop decode encode nodeId).offer conn = some payload →
      brokeFraming ((connectionLoop decode encode nodeId).sent conn) = brokeFraming conn ∧
        brokeFraming ((connectionLoop decode encode nodeId).refused conn) = brokeFraming conn := by
    intro conn payload offered
    unfold connectionLoop at offered
    cases phase : conn.phase <;> simp [connectionLoop, brokeFraming, phase] at offered ⊢
  have registrations := Channel.run_counted (T := connectionLoop decode encode nodeId) channelFrames
    DmmCounters.registrations (fun conn => conn.acks.length) (fun _ => rfl) turn_registrations (fun _ _ _ => rfl)
    (fun _ _ _ => rfl) ⟨0, 0⟩ events
  have badFraming := Channel.run_counted (T := connectionLoop decode encode nodeId) channelFrames
    DmmCounters.badFraming (fun conn => (brokeFraming conn).toNat) (fun _ => rfl) turn_badFraming
    (fun conn payload offered => congrArg Bool.toNat (sends conn payload offered).1)
    (fun conn payload offered => congrArg Bool.toNat (sends conn payload offered).2) ⟨0, 0⟩ events
  rw [Nat.zero_add] at registrations badFraming
  exact ⟨registrations, badFraming⟩

theorem carried_fits (fuel : Nat) (data payload : Bytes) (member : payload ∈ (unframeAll fuel data).1) :
    payload.length ≤ maxMessageLen := by
  induction fuel generalizing data with
  | zero => cases member
  | succ fuel ih =>
    rw [unframeAll] at member
    split at member
    · rename_i first rest found
      obtain rfl | later := List.mem_cons.mp member
      · exact (unframe_rest found).2
      · exact ih rest later
    · cases member

/-- What a connection has handed on is a front of what its peer sent, and each registration in it was
    acknowledged before it was handed on. -/
theorem Serves.handed {wire : Bytes} {conn : Connection} {out : List Bytes}
    (serves : Serves decode encode nodeId wire conn out) :
    ∃ handled, handled <+: (carried wire).1 ∧ (handled = out ∨ ∃ payload, handled = out ++ [payload]) ∧
      Answered decode encode nodeId handled conn.acks := by
  unfold Serves at serves
  split at serves
  · exact ⟨out, serves.1.front, Or.inl rfl, serves.2.1⟩
  · exact ⟨out, (List.prefix_append _ _).trans serves.1.front, Or.inl rfl, serves.2.1⟩
  · exact ⟨_, serves.1.front, Or.inr ⟨_, rfl⟩, serves.2.1⟩
  · exact ⟨out, serves.1 ▸ List.prefix_refl _, Or.inl rfl, serves.2.1⟩
  · exact ⟨out, serves.1, Or.inl rfl, serves.2⟩
  · exact ⟨out, serves.1, Or.inl rfl, serves.2⟩
  · obtain ⟨payload, front, answered⟩ := serves
    exact ⟨_, front, Or.inr ⟨payload, rfl⟩, answered⟩

end

variable {τ : Type*} (decode : Bytes → Option Message) (encode : τ → Message → Bytes) (nodeId : String)

/-- However connections, reads, acknowledgements, sends and the runtime's receives interleave, and whatever fails,
    what the runtime gets is made up of a front of each connection's frames, in order and whole, the channel keeps
    its bound, each registration was acknowledged once before it was handed on, and the counters are exact. -/
theorem connections_are_kept_apart (events : List (Event τ)) :
    ∃ out : Nat → List Bytes,
      Channel.Interleaves out
        ((run decode encode nodeId events).received ++ (run decode encode nodeId events).channel) ∧
      (∀ k, (Channel.spawned events).length ≤ k → out k = []) ∧
      (∀ k wire, (Channel.spawned events)[k]? = some wire →
        ∃ conn, (run decode encode nodeId events).tasks[k]? = some conn ∧
          ∃ handled, handled <+: (carried wire).1 ∧ (handled = out k ∨ ∃ payload, handled = out k ++ [payload]) ∧
            Answered decode encode nodeId handled conn.acks) ∧
      (run decode encode nodeId events).channel.length ≤ channelFrames ∧
      (∀ payload ∈ (run decode encode nodeId events).received, recvInto (64 * 1024) payload = payload) ∧
      (run decode encode nodeId events).shared.registrations =
        ((run decode encode nodeId events).tasks.map fun conn => conn.acks.length).sum ∧
      (run decode encode nodeId events).shared.badFraming =
        ((run decode encode nodeId events).tasks.map fun conn => (brokeFraming conn).toNat).sum := by
  obtain ⟨out, sound⟩ := Channel.run_sound (serves_keeps decode encode nodeId
    fun _ => True) channelFrames ⟨0, 0⟩ events fun _ _ => trivial
  have handed : ∀ k wire, (Channel.spawned events)[k]? = some wire →
      ∃ conn, (run decode encode nodeId events).tasks[k]? = some conn ∧
        ∃ handled, handled <+: (carried wire).1 ∧ (handled = out k ∨ ∃ payload, handled = out k ++ [payload]) ∧
          Answered decode encode nodeId handled conn.acks := by
    intro k wire opened
    have inside : k < (run decode encode nodeId events).tasks.length := by
      rw [run, sound.tasks]
      exact (List.getElem?_eq_some_iff.mp opened).1
    have found := List.getElem?_eq_getElem inside
    exact ⟨_, found, (sound.kept k wire _ opened found).handed⟩
  refine ⟨out, sound.merged, sound.rest, handed, sound.bound, ?_, counters_counted events⟩
  intro payload received
  obtain ⟨k, member⟩ := (sound.merged.mem_iff payload).mp (List.mem_append_left _ received)
  have inside : k < (Channel.spawned events).length := by
    by_contra beyond
    rw [sound.rest k (Nat.le_of_not_lt beyond)] at member
    cases member
  obtain ⟨conn, _, handled, front, of, _⟩ := handed k _ (List.getElem?_eq_getElem inside)
  have among : payload ∈ handled := by
    obtain rfl | ⟨last, rfl⟩ := of
    · exact member
    · exact List.mem_append_left _ member
  have fits : payload.length ≤ 64 * 1024 := carried_fits _ _ payload (front.subset among)
  rw [recvInto, List.take_of_length_le (Nat.le_min.mpr ⟨Nat.le_refl _, fits⟩)]

/-- Where reading ends, the next prefix is above the bound. -/
def overlong (wire : Bytes) : Bool :=
  match unframe (carried wire).2 with
  | .error (.tooLong _) => true
  | _ => false

variable {decode encode nodeId} in
/-- A connection at rest has handed on all its frames, and ended as its bytes end. -/
theorem Serves.finished {wire : Bytes} {conn : Connection} {out : List Bytes}
    (serves : Serves decode encode nodeId wire conn out) (ended : weight conn = 0) (readOut : ReadOut conn) :
    out = (carried wire).1 ∧ Answered decode encode nodeId (carried wire).1 conn.acks ∧
      brokeFraming conn = overlong wire := by
  unfold Serves at serves
  unfold weight at ended
  cases phase : conn.phase with
  | reading => simp [phase] at ended
  | acking payload ack => simp [phase] at ended
  | sending payload => simp [phase] at ended
  | ended why =>
    obtain ⟨e, rfl⟩ := readOut why phase
    rw [phase] at serves
    obtain ⟨all, answered, ends⟩ := serves
    rw [all]
    refine ⟨rfl, answered, ?_⟩
    cases e with
    | closed =>
      obtain need | ⟨declared, present, need⟩ := (ends : Short _) <;> simp [brokeFraming, overlong, phase, need]
    | tooLong n =>
      have long : unframe (carried wire).2 = .error (.tooLong n) := ends
      simp [brokeFraming, overlong, phase, long]

/-- Sums over the connections are sums over what they were started on. -/
theorem sum_of_forall₂ {wires : List Bytes} {tasks : List Connection} (f : Connection → Nat) (g : Bytes → Nat)
    (lengths : tasks.length = wires.length)
    (same : ∀ (k : Nat) wire conn, wires[k]? = some wire → tasks[k]? = some conn → f conn = g wire) :
    (tasks.map f).sum = (wires.map g).sum := by
  have equal : tasks.map f = wires.map g := by
    apply List.ext_getElem (by rw [List.length_map, List.length_map, lengths])
    intro k left right
    rw [List.length_map] at left right
    rw [List.getElem_map, List.getElem_map]
    exact same k _ _ (List.getElem?_eq_getElem right) (List.getElem?_eq_getElem left)
  rw [equal]

/-- Where nothing fails, every fair schedule hands on every frame of every connection and acknowledges every
    registration, whatever else it does and in whatever order. -/
theorem fair_schedules_hand_on_everything (events : List (Event τ)) (rounds : List (List (Event τ)))
    (undisturbed : ∀ event ∈ events ++ rounds.flatten, Undisturbed event)
    (fair : ∀ round ∈ rounds, Channel.Round turnKinds (Channel.spawned events).length round)
    (enough : ((Channel.spawned events).map fun wire => 4 * wire.length + 4).sum ≤ rounds.length) :
    ∃ out : Nat → List Bytes,
      Channel.Interleaves out (run decode encode nodeId (events ++ rounds.flatten)).received ∧
      (∀ k, (Channel.spawned events).length ≤ k → out k = []) ∧
      (∀ k wire, (Channel.spawned events)[k]? = some wire → out k = (carried wire).1 ∧
        ∃ conn, (run decode encode nodeId (events ++ rounds.flatten)).tasks[k]? = some conn ∧
          Answered decode encode nodeId (carried wire).1 conn.acks) ∧
      (run decode encode nodeId (events ++ rounds.flatten)).shared.registrations =
        ((Channel.spawned events).map fun wire => (carried wire).1.countP (registers decode)).sum ∧
      (run decode encode nodeId (events ++ rounds.flatten)).shared.badFraming =
        ((Channel.spawned events).map fun wire => (overlong wire).toNat).sum := by
  have kept : ∀ event ∈ events, event ≠ .dropReceiver := by
    rintro event member rfl
    exact undisturbed _ (List.mem_append_left _ member)
  have light : ((Channel.spawned events).map fun wire =>
      2 * weight ((connectionLoop decode encode nodeId).start wire)).sum ≤ rounds.length := by
    refine Nat.le_trans (Nat.le_of_eq ?_) enough
    congr 2
    funext wire
    simp only [connectionLoop, weight, unread, List.nil_append, Bool.false_eq_true, if_false]
    omega
  obtain ⟨out, sound, empty, ended⟩ := Channel.fair_sound
    (undisturbed_keeps decode encode nodeId) connectionLoop_terminates
    (show 0 < channelFrames by decide) ⟨0, 0⟩ events rounds undisturbed kept fair light
  have finished : ∀ k wire conn, (Channel.spawned events)[k]? = some wire →
      (run decode encode nodeId (events ++ rounds.flatten)).tasks[k]? = some conn →
      out k = (carried wire).1 ∧ Answered decode encode nodeId (carried wire).1 conn.acks ∧
        brokeFraming conn = overlong wire := by
    intro k wire conn at_wire at_conn
    have serves := sound.kept k wire conn at_wire at_conn
    exact serves.1.finished (ended conn (List.mem_of_getElem? at_conn)) serves.2
  refine ⟨out, ?_, sound.rest, ?_, ?_, ?_⟩
  · have merged := sound.merged
    rwa [empty, List.append_nil] at merged
  · intro k wire at_wire
    have inside : k < (run decode encode nodeId (events ++ rounds.flatten)).tasks.length := by
      rw [run, sound.tasks]
      exact (List.getElem?_eq_some_iff.mp at_wire).1
    have found := List.getElem?_eq_getElem inside
    have all := finished k wire _ at_wire found
    exact ⟨all.1, _, found, all.2.1⟩
  · rw [(counters_counted _).1]
    apply sum_of_forall₂ _ _ sound.tasks
    intro k wire conn at_wire at_conn
    exact (finished k wire conn at_wire at_conn).2.1.length
  · rw [(counters_counted _).2]
    apply sum_of_forall₂ _ _ sound.tasks
    intro k wire conn at_wire at_conn
    exact congrArg Bool.toNat (finished k wire conn at_wire at_conn).2.2

def sensorDecode (payload : Bytes) : Option Message :=
  if payload = [1] then some ⟨some .registration, some "sensor-7", none⟩ else none

/-- A registration, something that does not decode, and the front of a frame. -/
def sensorWire : Bytes := frame [1] ++ frame [2] ++ [3, 0]

def quietRound : List (Event Unit) := [.receive, .send 0, .turn 0 (.ackWritten true), .turn 0 (.poll 2 ())]

theorem quietRound_fair : Channel.Round turnKinds 1 quietRound where
  turns k below kind known := by
    obtain rfl : k = 0 := by omega
    obtain rfl | other := List.mem_cons.mp known
    · exact ⟨_, ⟨2, (), rfl⟩, by simp [quietRound]⟩
    · obtain rfl := List.mem_singleton.mp other
      exact ⟨_, ⟨true, rfl⟩, by simp [quietRound]⟩
  sends k below := by
    obtain rfl : k = 0 := by omega
    simp [quietRound]
  receives := by simp [quietRound]
  only event member := by
    simp only [quietRound, List.mem_cons, List.not_mem_nil, or_false] at member
    obtain rfl | rfl | rfl | rfl := member <;> simp

theorem one_sensor_is_served :
    ∃ out : Nat → List Bytes,
      Channel.Interleaves out (run sensorDecode (fun (_ : Unit) _ => [9]) "fusion-1"
        ([.spawn sensorWire] ++ (List.replicate 52 quietRound).flatten)).received ∧
      out 0 = [[1], [2]] ∧
      (run sensorDecode (fun (_ : Unit) _ => [9]) "fusion-1"
        ([.spawn sensorWire] ++ (List.replicate 52 quietRound).flatten)).shared.registrations = 1 := by
  obtain ⟨out, merged, _, each, registrations, _⟩ := fair_schedules_hand_on_everything sensorDecode
    (fun (_ : Unit) _ => [9]) "fusion-1" [.spawn sensorWire] (List.replicate 52 quietRound)
    (by
      intro event member
      obtain first | later := List.mem_append.mp member
      · obtain rfl := List.mem_singleton.mp first
        exact trivial
      · obtain ⟨round, among, inside⟩ := List.mem_flatten.mp later
        obtain rfl := List.eq_of_mem_replicate among
        simp only [quietRound, List.mem_cons, List.not_mem_nil, or_false] at inside
        obtain rfl | rfl | rfl | rfl := inside <;> exact trivial)
    (by
      intro round among
      obtain rfl := List.eq_of_mem_replicate among
      exact quietRound_fair)
    (by decide)
  exact ⟨out, merged, (each 0 sensorWire rfl).1.trans (by decide), registrations.trans (by decide)⟩

end DmmProof
