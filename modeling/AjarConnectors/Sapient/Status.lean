import AjarConnectors.Sapient.Registration
import AjarConnectors.Sapient.Relay

namespace SapientModel

def Message.isStatus (message : Message) : Bool :=
  match message.content with
  | some (.statusReport _) => true
  | _ => false

def Message.isPlain (message : Message) : Bool := !message.isStatus && !message.isRegistration

def Event.isPlain : Event → Bool
  | .wrote _ message => message.isPlain
  | _ => true

/-- A status report was written on this connection. -/
def Reported (trace : List Event) (conn : Nat) : Prop := ∃ message, .wrote conn message ∈ trace ∧ message.isStatus = true

def OneRegistration (trace : List Event) : Prop :=
  ∀ before conn message after, trace = before ++ .wrote conn message :: after → message.isRegistration = true →
    ¬ Written before conn

/-- Every status report follows an accepted registration of its connection, and it says that the
    information is new exactly when it is the first one there. -/
def StatusMarked (decode : Bytes → Option Message) (trace : List Event) : Prop :=
  ∀ before conn message info after, trace = before ++ .wrote conn message :: after →
    message.content = some (.statusReport info) →
    Acknowledged decode before conn ∧ (info = .new ↔ ¬ Reported before conn)

section

variable (decode : Bytes → Option Message) (node : Node)

/-- The peer lets a registration through: from a fresh link this attempt would succeed. -/
def Dial.accepted (dial : Dial) : Bool := (World.new.ensureRegistered decode node dial).2 matches .ok ()

/-- The loop's own attempt to register fails, and the one of the drain succeeds, after a status
    report went out on an earlier registration. -/
def LateRegistration (s : Egress) (pass : Pass) : Prop :=
  s.world.isConnected = false ∧ s.firstStatus = false ∧ s.relay.buffer ≠ [] ∧
    pass.dial.accepted decode node = false ∧ (pass.attempts 0).dial.accepted decode node = true

instance (s : Egress) (pass : Pass) : Decidable (LateRegistration decode node s pass) :=
  inferInstanceAs (Decidable (_ ∧ _ ∧ _ ∧ _ ∧ _))

end

end SapientModel

namespace SapientProof

open SapientModel

variable {decode : Bytes → Option Message} {node : Node} {w w' w'' : World} {trace : List Event} {conn : Nat}

theorem plain_status {message : Message} (plain : message.isPlain = true) : message.isStatus = false := by
  rw [Message.isPlain, Bool.and_eq_true, Bool.not_eq_true'] at plain
  exact plain.1

theorem plain_registration {message : Message} (plain : message.isPlain = true) : message.isRegistration = false := by
  rw [Message.isPlain, Bool.and_eq_true, Bool.not_eq_true', Bool.not_eq_true'] at plain
  exact plain.2

theorem status_of_content {message : Message} {info : Info} (content : message.content = some (.statusReport info)) :
    message.isStatus = true := by
  rw [Message.isStatus, content]

/-- What is appended last splits off at the end or leaves the split in the front part. -/
theorem split_concat {event last : Event} {before after : List Event}
    (split : trace ++ [last] = before ++ event :: after) :
    (trace = before ∧ last = event) ∨ ∃ front, trace = before ++ event :: front := by
  rcases List.eq_nil_or_concat' after with rfl | ⟨front, final, rfl⟩
  · have ends := List.append_inj' split rfl
    exact Or.inl ⟨ends.1, by simpa using ends.2⟩
  · rw [← List.cons_append, ← List.append_assoc] at split
    exact Or.inr ⟨front, (List.append_inj' split rfl).1⟩

theorem reported_append_iff {events : List Event} (plain : ∀ event ∈ events, event.isPlain = true) :
    Reported (trace ++ events) conn ↔ Reported trace conn := by
  constructor
  · intro reported
    rcases reported with ⟨message, member, status⟩
    rcases List.mem_append.mp member with member | member
    · exact ⟨message, member, status⟩
    · exact absurd (status.symm.trans (plain_status (plain _ member))) (by decide)
  · intro reported
    rcases reported with ⟨message, member, status⟩
    exact ⟨message, List.mem_append_left _ member, status⟩

theorem reported_mono (quiet : ∀ message, .wrote conn message ∈ trace → message.isStatus = false) :
    ¬ Reported trace conn := by
  intro reported
  rcases reported with ⟨message, member, status⟩
  exact absurd (status.symm.trans (quiet message member)) (by decide)

/-- The trace is in order: one registration a connection, and the status reports marked. -/
structure Orderly (decode : Bytes → Option Message) (w : World) : Prop extends Settled decode w where
  once : OneRegistration w.trace
  marked : StatusMarked decode w.trace

theorem once_concat {event : Event} (once : OneRegistration trace)
    (allowed : ∀ conn message, event = .wrote conn message → message.isRegistration = true → ¬ Written trace conn) :
    OneRegistration (trace ++ [event]) := by
  intro before conn message after split registration
  rcases split_concat split with ⟨rfl, rfl⟩ | ⟨front, inside⟩
  · exact allowed conn message rfl registration
  · exact once before conn message front inside registration

theorem marked_concat {event : Event} (marked : StatusMarked decode trace)
    (allowed : ∀ conn message info, event = .wrote conn message → message.content = some (.statusReport info) →
      Acknowledged decode trace conn ∧ (info = .new ↔ ¬ Reported trace conn)) :
    StatusMarked decode (trace ++ [event]) := by
  intro before conn message info after split content
  rcases split_concat split with ⟨rfl, rfl⟩ | ⟨front, inside⟩
  · exact allowed conn message info rfl content
  · exact marked before conn message info front inside content

theorem once_append {events : List Event} (once : OneRegistration trace)
    (plain : ∀ event ∈ events, event.isPlain = true) : OneRegistration (trace ++ events) := by
  induction events generalizing trace with
  | nil => simpa using once
  | cons event events ih =>
    rw [List.append_cons]
    apply ih
    · apply once_concat once
      intro conn message same registration
      subst same
      have here := plain_registration (plain (.wrote conn message) List.mem_cons_self)
      exact absurd (registration.symm.trans here) (by decide)
    · exact fun event member => plain event (List.mem_cons_of_mem _ member)

theorem marked_append {events : List Event} (marked : StatusMarked decode trace)
    (plain : ∀ event ∈ events, event.isPlain = true) : StatusMarked decode (trace ++ events) := by
  induction events generalizing trace with
  | nil => simpa using marked
  | cons event events ih =>
    rw [List.append_cons]
    apply ih
    · apply marked_concat marked
      intro conn message info same content
      subst same
      have here := plain_status (plain (.wrote conn message) List.mem_cons_self)
      exact absurd ((status_of_content content).symm.trans here) (by decide)
    · exact fun event member => plain event (List.mem_cons_of_mem _ member)

theorem plain_of_read {event : Event} (read : event.isWrite = false) : event.isPlain = true := by
  cases event with
  | wrote conn message => cases read
  | connected conn => rfl
  | arrived conn chunk => rfl
  | read conn payload => rfl

/-- A step that keeps the connection or loses it, and writes neither a registration nor a status
    report. -/
structure Follows (w w' : World) : Prop where
  grows : Grows (fun event => event.isPlain = true) w w'
  writer : w'.link.writer = w.link.writer ∨ w'.link.writer = none

theorem Follows.refl (w : World) : Follows w w := ⟨Grows.refl _ w, Or.inl rfl⟩

theorem Follows.trans (first : Follows w w') (second : Follows w' w'') : Follows w w'' := by
  refine ⟨first.grows.trans second.grows, ?_⟩
  rcases second.writer with same | none
  · rw [same]
    exact first.writer
  · exact Or.inr none

theorem Follows.reads (reads : Reads w w') : Follows w w' :=
  ⟨reads.grows.mono fun _ => plain_of_read, Or.inl reads.writer⟩

theorem Follows.drop (follows : Follows w w') : Follows w w'.dropConnection :=
  ⟨follows.grows, Or.inr rfl⟩

theorem Follows.orderly (follows : Follows w w') (orderly : Orderly decode w) (settled : Settled decode w') :
    Orderly decode w' := by
  rcases follows.grows with ⟨events, grown, plain⟩
  refine ⟨settled, ?_, ?_⟩
  · rw [grown]
    exact once_append orderly.once plain
  · rw [grown]
    exact marked_append orderly.marked plain

/-- The flag says whether the current connection still waits for its first status report. -/
def Current (first : Bool) (w : World) : Prop :=
  ∀ conn, w.link.writer = some conn → (first = true ↔ ¬ Reported w.trace conn)

theorem current_of_down {first : Bool} (down : w.link.writer = none) : Current first w := by
  intro conn writer
  cases down.symm.trans writer

theorem Follows.current {first : Bool} (follows : Follows w w') (current : Current first w) : Current first w' := by
  rcases follows.grows with ⟨events, grown, plain⟩
  rcases follows.writer with same | none
  · intro conn writer
    rw [grown, reported_append_iff plain]
    exact current conn (same.symm.trans writer)
  · exact current_of_down none

theorem ensureRegistered_connected (connected : w.isConnected = true) (dial : Dial) :
    w.ensureRegistered decode node dial = (w, .ok ()) := by
  rw [World.ensureRegistered, if_pos connected]

theorem down_iff : w.isConnected = false ↔ w.link.writer = none := by
  rw [World.isConnected, Option.isSome_eq_false_iff, Option.isNone_iff_eq_none]

theorem registration_status (node : Node) : node.registration.isStatus = false := rfl

/-- What an attempt to register leaves behind: a connection that waits for its first status report,
    or none. -/
structure Dialled (decode : Bytes → Option Message) (outcome : World × Except LinkError Unit) : Prop where
  orderly : Orderly decode outcome.1
  accepted : outcome.2 = .ok () → outcome.1.isConnected = true ∧ Current true outcome.1
  refused : ∀ e, outcome.2 = .error e → outcome.1.link.writer = none

theorem Orderly.dial (orderly : Orderly decode w) (node : Node) (dial : Dial) :
    Dialled decode (w.connect.register decode node dial) := by
  have unused := (absent_of_fresh orderly.toTraced w.opened (Nat.le_refl _)).2.2
  rcases orderly.toSettled.connectRegister node dial with ⟨settled, registering⟩
  rcases registering.trace with ⟨rest, grown, none⟩
  have plain : ∀ event ∈ rest, event.isPlain = true := fun event member => plain_of_read (none event member)
  have parts : w.connect.trace ++ .wrote w.opened node.registration :: rest =
      w.trace ++ [.connected w.opened] ++ [.wrote w.opened node.registration] ++ rest := by
    rw [List.append_cons]
    rfl
  rw [parts] at grown
  refine ⟨⟨settled, ?_, ?_⟩, ?_, registering.refused⟩
  · rw [grown]
    apply once_append _ plain
    apply once_concat
    · exact once_concat orderly.once fun _ _ same => by cases same
    · intro conn message same registration
      cases same
      exact fun written => unused (written_concat_iff (fun _ same => by cases same) written)
  · rw [grown]
    apply marked_append _ plain
    apply marked_concat
    · exact marked_concat orderly.marked fun _ _ _ same => by cases same
    · intro conn message info same content
      cases same
      exact absurd ((registration_status node).symm.trans (status_of_content content)) (by decide)
  · intro ok
    have writer := registering.accepted ok
    refine ⟨by rw [World.isConnected, writer]; rfl, ?_⟩
    intro conn same
    cases writer.symm.trans same
    rw [grown, reported_append_iff plain]
    simp only [true_iff]
    apply reported_mono
    intro message member
    rcases List.mem_append.mp member with member | member
    · rcases List.mem_append.mp member with member | member
      · exact absurd ⟨message, member⟩ unused
      · cases List.mem_singleton.mp member
    · cases List.mem_singleton.mp member
      exact registration_status node

theorem Orderly.ensureRegistered (orderly : Orderly decode w) (down : w.isConnected = false) (node : Node)
    (dial : Dial) : Dialled decode (w.ensureRegistered decode node dial) := by
  have none := down_iff.mp down
  rw [World.ensureRegistered, if_neg (by rw [down]; decide)]
  cases dial.connecting with
  | timedOut => exact ⟨orderly, fun same => (by cases same), fun _ _ => none⟩
  | failed => exact ⟨orderly, fun same => (by cases same), fun _ _ => none⟩
  | connected => exact orderly.dial node dial

theorem write_follows (w : World) {message : Message} (plain : message.isPlain = true) (writes : Bool) :
    Follows w (w.write message writes).1 ∧ (w.write message writes).1.link = w.link := by
  unfold World.write
  split
  · exact ⟨Follows.refl w, rfl⟩
  · rename_i conn writer
    refine ⟨⟨⟨[.wrote conn message], rfl, ?_⟩, Or.inl rfl⟩, rfl⟩
    intro event member
    rw [List.mem_singleton.mp member]
    exact plain

/-- Once registered, sending a message that is neither a registration nor a status report keeps the
    connection or loses it; it is kept when the send succeeds. -/
theorem send_follows (decode : Bytes → Option Message) (w : World) (node : Node) {message : Message}
    (plain : message.isPlain = true) (dial : Dial) (writes : Bool) :
    Follows (w.ensureRegistered decode node dial).1 (w.send decode node message dial writes).1 ∧
      ((w.send decode node message dial writes).2 = .ok () →
        (w.ensureRegistered decode node dial).2 = .ok () ∧
        (w.send decode node message dial writes).1.link = (w.ensureRegistered decode node dial).1.link) ∧
      (∀ e, (w.ensureRegistered decode node dial).2 = .error e →
        w.send decode node message dial writes = w.ensureRegistered decode node dial) := by
  unfold World.send
  split
  · rename_i w1 e ensured
    rw [ensured]
    exact ⟨Follows.refl w1, fun same => (by cases same), fun _ _ => rfl⟩
  · rename_i w1 ensured
    rw [ensured]
    have wrote := write_follows w1 plain writes
    split
    · rename_i w2 e failed
      rw [failed] at wrote
      exact ⟨wrote.1.drop, fun same => (by cases same), fun e same => (by cases same)⟩
    · rename_i w2 sent
      rw [sent] at wrote
      exact ⟨wrote.1, fun _ => ⟨rfl, wrote.2⟩, fun e same => (by cases same)⟩

theorem Orderly.send (orderly : Orderly decode w) (node : Node) {message : Message} (plain : message.isPlain = true)
    (dial : Dial) (writes : Bool) : Orderly decode (w.send decode node message dial writes).1 := by
  have follows := (send_follows decode w node plain dial writes).1
  have settled := orderly.toSettled.send node message dial writes
  cases connected : w.isConnected with
  | true =>
    rw [ensureRegistered_connected connected] at follows
    exact follows.orderly orderly settled
  | false => exact follows.orderly (orderly.ensureRegistered connected node dial).orderly settled

section

variable (node : Node) (attempts : Nat → Attempt)

theorem drainLoop_orderly {buffer : List Message} (orderly : Orderly decode w)
    (plain : ∀ message ∈ buffer, message.isPlain = true) (metrics : Metrics) (sent : Nat) :
    Orderly decode (Relay.drainLoop decode node attempts w metrics sent buffer).1 ∧
      (Relay.drainLoop decode node attempts w metrics sent buffer).2.2 <:+ buffer := by
  induction buffer generalizing w metrics sent with
  | nil => exact ⟨orderly, List.suffix_refl []⟩
  | cons front later ih =>
    have next := orderly.send node (plain front List.mem_cons_self) (attempts sent).dial (attempts sent).writes
    rw [Relay.drainLoop]
    split
    · rename_i w1 done
      rw [done] at next
      have rest := ih next (fun message member => plain message (List.mem_cons_of_mem _ member))
        { metrics with delivered := metrics.delivered + 1 } (sent + 1)
      exact ⟨rest.1, rest.2.trans (List.suffix_cons _ _)⟩
    · rename_i w1 e failed
      rw [failed] at next
      exact ⟨next, List.suffix_refl _⟩

theorem drainLoop_follows {buffer : List Message} (connected : w.isConnected = true)
    (plain : ∀ message ∈ buffer, message.isPlain = true) (metrics : Metrics) (sent : Nat) :
    Follows w (Relay.drainLoop decode node attempts w metrics sent buffer).1 := by
  induction buffer generalizing w metrics sent with
  | nil => exact Follows.refl w
  | cons front later ih =>
    have next := send_follows decode w node (plain front List.mem_cons_self) (attempts sent).dial (attempts sent).writes
    rw [ensureRegistered_connected connected] at next
    rw [Relay.drainLoop]
    split
    · rename_i w1 done
      rw [done] at next
      have same : w1.link = w.link := (next.2.1 rfl).2
      apply next.1.trans
      apply ih
      · rw [World.isConnected, same]
        exact connected
      · exact fun message member => plain message (List.mem_cons_of_mem _ member)
    · rename_i w1 e failed
      rw [failed] at next
      exact next.1

/-- A drain that has to register itself leaves the flag right only if it is still set. -/
theorem drainLoop_current {buffer : List Message} {first : Bool} (orderly : Orderly decode w) (current : Current first w)
    (plain : ∀ message ∈ buffer, message.isPlain = true) (metrics : Metrics)
    (safe : w.isConnected = true ∨ first = true ∨ buffer = [] ∨
      (w.ensureRegistered decode node (attempts 0).dial).2 ≠ .ok ()) :
    Current first (Relay.drainLoop decode node attempts w metrics 0 buffer).1 := by
  cases connected : w.isConnected with
  | true => exact (drainLoop_follows node attempts connected plain metrics 0).current current
  | false =>
    cases buffer with
    | nil => exact current
    | cons front later =>
      have dialled := orderly.ensureRegistered connected node (attempts 0).dial
      have next := send_follows decode w node (plain front List.mem_cons_self) (attempts 0).dial (attempts 0).writes
      have rest : ∀ message ∈ later, message.isPlain = true :=
        fun message member => plain message (List.mem_cons_of_mem _ member)
      cases ensured : (w.ensureRegistered decode node (attempts 0).dial).2 with
      | error e =>
        rw [Relay.drainLoop, next.2.2 e ensured]
        split
        · rename_i w1 done
          rw [done] at ensured
          cases ensured
        · rename_i w1 e failed
          rw [failed] at dialled
          exact current_of_down (dialled.refused e rfl)
      | ok done =>
        have set : first = true := by
          rcases safe with up | set | empty | refused
          · exact absurd (connected.symm.trans up) (by decide)
          · exact set
          · cases empty
          · exact absurd ensured refused
        subst set
        have waits := dialled.accepted ensured
        rw [Relay.drainLoop]
        split
        · rename_i w1 done
          rw [done] at next
          have same := (next.2.1 rfl).2
          apply (drainLoop_follows node attempts _ rest _ _).current (next.1.current waits.2)
          have up := waits.1
          rw [World.isConnected] at up ⊢
          rw [same]
          exact up
        · rename_i w1 e failed
          rw [failed] at next
          exact next.1.current waits.2

end

theorem nextInbound_follows (orderly : Orderly decode w) (arrivals : List Arrival) :
    Follows w (w.nextInbound decode arrivals).1 ∧
      ∀ message, (w.nextInbound decode arrivals).2 = some (.ok message) →
        (w.nextInbound decode arrivals).1.link.writer = w.link.writer := by
  have read := (orderly.toTraced.readMessage arrivals).2.1
  unfold World.nextInbound
  split
  · rename_i w1 later found
    rw [found] at read
    exact ⟨Follows.reads read, fun message same => (by cases same)⟩
  · rename_i w1 message later found
    rw [found] at read
    exact ⟨Follows.reads read, fun _ _ => read.writer⟩
  · rename_i w1 e later found
    rw [found] at read
    exact ⟨(Follows.reads read).drop, fun message same => (by cases same)⟩

theorem taskRejected_plain (node : Node) (taskId : String) (sender : Option String) :
    (node.taskRejected taskId sender).isPlain = true := rfl

/-- An answer is only written on the connection the task came over. -/
theorem answer_follows (decode : Bytes → Option Message) (connected : w.isConnected = true) (node : Node)
    (message : Message) (reply : Attempt) :
    Follows w (w.answer decode node message reply.dial reply.writes).1 := by
  unfold World.answer
  split
  · rename_i taskId _
    have next := send_follows decode w node (taskRejected_plain node (taskId.getD "") message.nodeId) reply.dial
      reply.writes
    rw [ensureRegistered_connected connected] at next
    split
    · rename_i failed
      rw [failed] at next
      exact next.1
    · rename_i sent
      rw [sent] at next
      exact next.1
  · exact Follows.refl w

/-- All that reading looks at. -/
structure Alike (w w' : World) : Prop where
  held : w.link.held = w'.link.held
  reader : w.link.reader.isSome = w'.link.reader.isSome
  writer : w.link.writer.isSome = w'.link.writer.isSome

theorem readFrame_alike (conn conn' : Nat) (arrivals : List Arrival) (alike : Alike w w') :
    Alike (w.readFrame conn arrivals).1 (w'.readFrame conn' arrivals).1 ∧
      (w.readFrame conn arrivals).2 = (w'.readFrame conn' arrivals).2 := by
  induction arrivals generalizing w w' with
  | nil =>
    rw [World.readFrame.eq_def, World.readFrame.eq_def conn', alike.held]
    split
    · exact ⟨⟨by simp only, alike.reader, alike.writer⟩, rfl⟩
    · exact ⟨alike, rfl⟩
    · exact ⟨alike, rfl⟩
  | cons arrival later ih =>
    rw [World.readFrame.eq_def, World.readFrame.eq_def conn', alike.held]
    split
    · exact ⟨⟨by simp only, alike.reader, alike.writer⟩, rfl⟩
    · exact ⟨alike, rfl⟩
    · cases arrival with
      | closed => exact ⟨alike, rfl⟩
      | failed => exact ⟨alike, rfl⟩
      | bytes first rest => exact ih ⟨by simp only, alike.reader, alike.writer⟩

theorem readMessage_alike (decode : Bytes → Option Message) (arrivals : List Arrival) (alike : Alike w w') :
    Alike (w.readMessage decode arrivals).1 (w'.readMessage decode arrivals).1 ∧
      (w.readMessage decode arrivals).2 = (w'.readMessage decode arrivals).2 := by
  have same := alike.reader
  unfold World.readMessage
  cases reader : w.link.reader with
  | none =>
    cases other : w'.link.reader with
    | none => exact ⟨alike, rfl⟩
    | some conn' => simp [reader, other] at same
  | some conn =>
    cases other : w'.link.reader with
    | none => simp [reader, other] at same
    | some conn' =>
      have next := readFrame_alike conn conn' arrivals alike
      dsimp only
      revert next
      generalize w.readFrame conn arrivals = here
      generalize w'.readFrame conn' arrivals = there
      rcases here with ⟨w1, result, later⟩
      rcases there with ⟨w2, result', later'⟩
      intro next
      rcases next with ⟨alike, same⟩
      cases same
      rcases result with _ | e | payload
      · exact ⟨alike, rfl⟩
      · exact ⟨alike, rfl⟩
      · dsimp only
        cases decode payload with
        | none => exact ⟨alike, rfl⟩
        | some message => exact ⟨alike, rfl⟩

theorem awaitAck_alike (decode : Bytes → Option Message) (rounds : Nat) (arrivals : List Arrival) (alike : Alike w w') :
    (w.awaitAck decode rounds arrivals).2 = (w'.awaitAck decode rounds arrivals).2 := by
  induction rounds generalizing w w' arrivals with
  | zero => rfl
  | succ rounds ih =>
    have next := readMessage_alike decode arrivals alike
    rw [World.awaitAck, World.awaitAck]
    revert next
    generalize w.readMessage decode arrivals = here
    generalize w'.readMessage decode arrivals = there
    rcases here with ⟨w1, result, later⟩
    rcases there with ⟨w2, result', later'⟩
    intro next
    rcases next with ⟨alike, same⟩
    cases same
    rcases result with _ | e | message
    · rfl
    · rfl
    · dsimp only
      split
      · rfl
      · exact ih later alike

/-- Whether an attempt to register succeeds is up to the peer alone. -/
theorem ensureRegistered_peer (down : w.isConnected = false) (down' : w'.isConnected = false) (dial : Dial) :
    (w.ensureRegistered decode node dial).2 = (w'.ensureRegistered decode node dial).2 := by
  rw [World.ensureRegistered, if_neg (by rw [down]; decide), World.ensureRegistered, if_neg (by rw [down']; decide)]
  cases dial.connecting with
  | timedOut => rfl
  | failed => rfl
  | connected =>
    have alike : Alike { w.connect with trace := w.connect.trace ++ [.wrote w.opened node.registration] }
        { w'.connect with trace := w'.connect.trace ++ [.wrote w'.opened node.registration] } := ⟨rfl, rfl, rfl⟩
    have waited := awaitAck_alike decode (World.arrivingBytes dial.arrivals + 1) dial.arrivals alike
    simp only [World.register, World.write, World.connect] at waited ⊢
    cases dial.writes with
    | false => rfl
    | true =>
      simp only [List.length_nil, Nat.zero_add, if_true]
      revert waited
      generalize World.awaitAck decode _ _ _ = here
      generalize World.awaitAck decode _ _ _ = there
      rcases here with ⟨w1, result⟩
      rcases there with ⟨w2, result'⟩
      intro waited
      cases waited
      rcases result with _ | e | ack
      · rfl
      · rfl
      · dsimp only
        split <;> rfl

theorem accepted_iff (decode : Bytes → Option Message) (node : Node) (down : w.isConnected = false) (dial : Dial) :
    dial.accepted decode node = true ↔ (w.ensureRegistered decode node dial).2 = .ok () := by
  rw [Dial.accepted, ensureRegistered_peer down (show World.new.isConnected = false from rfl)]
  cases (World.new.ensureRegistered decode node dial).2 with
  | error e => simp
  | ok done => simp

end SapientProof
