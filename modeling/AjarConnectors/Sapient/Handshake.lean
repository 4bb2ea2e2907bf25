import AjarConnectors.Sapient.Acceptor

namespace SapientModel

def Event.messageOn (conn : Nat) : Event → Option Message
  | .wrote c message => if c = conn then some message else none
  | _ => none

/-- The messages written on a connection, in order. -/
def messagesOn (conn : Nat) (trace : List Event) : List Message := trace.filterMap (Event.messageOn conn)

end SapientModel

namespace SapientProof

open SapientModel

variable {decode : Bytes → Option Message} {w w' : World} {conn : Nat}

theorem messagesOn_append (conn : Nat) (front back : List Event) :
    messagesOn conn (front ++ back) = messagesOn conn front ++ messagesOn conn back := List.filterMap_append

theorem messagesOn_reads {events : List Event} (reads : ∀ event ∈ events, event.isWrite = false) (conn : Nat) :
    messagesOn conn events = [] := by
  apply List.filterMap_eq_nil_iff.mpr
  intro event member
  have read := reads event member
  cases event with
  | wrote c message => cases read
  | connected c => rfl
  | arrived c chunk => rfl
  | read c payload => rfl

theorem messagesOn_unwritten (unwritten : ¬ Written w.trace conn) : messagesOn conn w.trace = [] := by
  apply List.filterMap_eq_nil_iff.mpr
  intro event member
  cases event with
  | wrote c message =>
    have other : c ≠ conn := by
      rintro rfl
      exact unwritten ⟨message, member⟩
    exact if_neg other
  | connected c => rfl
  | arrived c chunk => rfl
  | read c payload => rfl

/-- The registration is the first message of every connection that has one, and a connected link has written it. -/
structure Introduced (w : World) : Prop where
  first : ∀ conn message, (messagesOn conn w.trace).head? = some message → message.isRegistration = true
  current : ∀ conn, w.link.writer = some conn → messagesOn conn w.trace ≠ []

theorem Introduced.drop (introduced : Introduced w) : Introduced w.dropConnection where
  first := introduced.first
  current := fun conn same => by cases same

theorem Introduced.reads (introduced : Introduced w) (reads : Reads w w') : Introduced w' := by
  obtain ⟨events, grown, none⟩ := reads.grows
  have same : ∀ conn, messagesOn conn w'.trace = messagesOn conn w.trace := by
    intro conn
    rw [grown, messagesOn_append, messagesOn_reads none, List.append_nil]
  constructor
  · intro conn message head
    rw [same] at head
    exact introduced.first conn message head
  · intro conn writer
    rw [same]
    rw [reads.writer] at writer
    exact introduced.current conn writer

theorem Introduced.write (introduced : Introduced w) (message : Message) (writes : Bool) :
    Introduced (w.write message writes).1 := by
  unfold World.write
  cases writer : w.link.writer with
  | none => exact introduced
  | some conn =>
    have filled := introduced.current conn writer
    constructor
    · intro other first head
      dsimp only at head
      rw [messagesOn_append] at head
      by_cases same : conn = other
      · subst same
        obtain ⟨m, rest, split⟩ := List.exists_cons_of_ne_nil filled
        rw [split] at head
        apply introduced.first conn first
        rw [split]
        exact head
      · have none : messagesOn other [.wrote conn message] = [] := by
          simp [messagesOn, Event.messageOn, same]
        rw [none, List.append_nil] at head
        exact introduced.first other first head
    · intro other bound
      dsimp only
      rw [messagesOn_append]
      exact List.append_ne_nil_of_left_ne_nil (introduced.current other bound) _

theorem Introduced.ensureRegistered (introduced : Introduced w) (settled : Settled decode w) (node : Node) (dial : Dial) :
    Introduced (w.ensureRegistered decode node dial).1 := by
  unfold World.ensureRegistered
  split
  · exact introduced
  · split
    · exact introduced
    · exact introduced
    · obtain ⟨_, registering⟩ := settled.connectRegister node dial
      obtain ⟨rest, grown, reads⟩ := registering.trace
      have unwritten := (absent_of_fresh settled.toTraced w.opened (Nat.le_refl _)).2.2
      have messages : ∀ conn, messagesOn conn (w.connect.register decode node dial).1.trace =
          if conn = w.opened then [node.registration] else messagesOn conn w.trace := by
        intro conn
        rw [grown, World.connect, messagesOn_append, messagesOn_append, List.append_assoc]
        rw [show messagesOn conn (Event.wrote w.opened node.registration :: rest) =
            messagesOn conn [Event.wrote w.opened node.registration] ++ messagesOn conn rest from
          messagesOn_append conn [_] rest, messagesOn_reads reads]
        by_cases same : conn = w.opened
        · rw [if_pos same, same, messagesOn_unwritten unwritten]
          simp [messagesOn, Event.messageOn]
        · rw [if_neg same]
          simp [messagesOn, Event.messageOn, Ne.symm same]
      constructor
      · intro conn message head
        rw [messages] at head
        split at head
        · cases head
          rfl
        · exact introduced.first conn message head
      · intro conn writer
        have accepted : (w.connect.register decode node dial).2 = .ok () := by
          cases outcome : (w.connect.register decode node dial).2 with
          | ok done => rfl
          | error e => exact absurd (writer.symm.trans (registering.refused e outcome)) (by simp)
        have here : conn = w.opened := Option.some.inj (writer.symm.trans (registering.accepted accepted))
        rw [messages, if_pos here]
        exact List.cons_ne_nil _ _

theorem Introduced.send (introduced : Introduced w) (settled : Settled decode w) (node : Node) (message : Message)
    (dial : Dial) (writes : Bool) : Introduced (w.send decode node message dial writes).1 := by
  have ensured := introduced.ensureRegistered settled node dial
  unfold World.send
  split
  · rename_i w1 e found
    rw [found] at ensured
    exact ensured
  · rename_i w1 found
    rw [found] at ensured
    have wrote := ensured.write message writes
    split
    · rename_i w2 e failed
      rw [failed] at wrote
      exact wrote.drop
    · rename_i w2 sent
      rw [sent] at wrote
      exact wrote

theorem Introduced.apply (introduced : Introduced w) (settled : Settled decode w) (node : Node) (op : Op) :
    Introduced (w.apply decode node op) := by
  cases op with
  | ensureRegistered dial => exact introduced.ensureRegistered settled node dial
  | send message dial writes => exact introduced.send settled node message dial writes
  | dropConnection => exact introduced.drop
  | nextInbound arrivals =>
    have read := (settled.toTraced.readMessage arrivals).2.1
    unfold World.apply World.nextInbound
    dsimp only
    split
    · rename_i found
      rw [found] at read
      exact introduced.reads read
    · rename_i found
      rw [found] at read
      exact introduced.reads read
    · rename_i found
      rw [found] at read
      exact (introduced.reads read).drop
  | answer message dial writes =>
    unfold World.apply World.answer
    dsimp only
    split
    · rename_i taskId _
      have sent := introduced.send settled node (node.taskRejected (taskId.getD "") message.nodeId) dial writes
      split
      · rename_i found
        rw [found] at sent
        exact sent
      · rename_i found
        rw [found] at sent
        exact sent
    · exact introduced

theorem new_introduced : Introduced World.new := ⟨fun _ _ head => (by cases head), fun _ same => (by cases same)⟩

theorem run_introduced (decode : Bytes → Option Message) (node : Node) (ops : List Op) :
    Settled decode (ops.foldl (World.apply decode node) World.new) ∧
      Introduced (ops.foldl (World.apply decode node) World.new) :=
  Transition.always (fun w : World => Settled decode w ∧ Introduced w)
    (fun _ op kept => ⟨kept.1.apply node op, kept.2.apply kept.1 node op⟩) ops ⟨new_settled, new_introduced⟩

end SapientProof

namespace DmmProof

open SapientModel SapientProof DmmModel

/-- A frame is told from what follows it. -/
theorem frame_append_inj {p q rest more : Bytes} (small_p : p.length < 2^32) (small_q : q.length < 2^32)
    (same : frame p ++ rest = frame q ++ more) : p = q ∧ rest = more := by
  have fits : ∀ {b : Bytes}, b.length < 2^32 → b.length ≤ Framing.u32Le.limit := Nat.le_of_lt_succ
  have first := Framing.LengthPrefix.declared_put Framing.u32Le p (p ++ rest) (fits small_p)
  have second := Framing.LengthPrefix.declared_put Framing.u32Le q (q ++ more) (fits small_q)
  have bytes : u32LeBytes p.length ++ (p ++ rest) = u32LeBytes q.length ++ (q ++ more) := by
    rw [← List.append_assoc, ← List.append_assoc]
    exact same
  have lengths : p.length = q.length := by
    rw [show Framing.u32Le.put p.length ++ (p ++ rest) = Framing.u32Le.put q.length ++ (q ++ more) from bytes,
      second] at first
    exact (Option.some.inj first).symm
  rw [lengths] at bytes
  exact List.append_inj (List.append_cancel_left bytes) lengths

theorem unframe_nil : unframe [] = .error .needPrefix := rfl

/-- A cut stream of frames carries the front of them. -/
theorem carried_cut {payloads : List Bytes} (small : ∀ payload ∈ payloads, payload.length < 2^32) {wire : Bytes}
    (travelled : wire <+: payloads.flatMap frame) : (carried wire).1 <+: payloads := by
  induction payloads generalizing wire with
  | nil =>
    rw [List.prefix_nil.mp travelled, carried_error unframe_nil]
  | cons payload payloads ih =>
    cases found : unframe wire with
    | error e =>
      rw [carried_error found]
      exact List.nil_prefix
    | ok taken =>
      obtain ⟨first, rest⟩ := taken
      obtain ⟨more, whole⟩ := travelled
      have bounds := unframe_rest found
      have split := unframe_ok found
      rw [← bounds.1] at split
      rw [split, List.flatMap_cons, List.append_assoc] at whole
      have bound : first.length < 2^32 := Nat.lt_of_le_of_lt bounds.2 (by decide)
      obtain ⟨rfl, later⟩ := frame_append_inj bound (small payload List.mem_cons_self) whole
      rw [carried_ok found]
      exact List.cons_prefix_cons.mpr ⟨rfl, ih (fun p member => small p (List.mem_cons_of_mem _ member)) ⟨more, later⟩⟩

theorem countP_of_forall₂ {α β : Type*} {R : α → β → Prop} {p : α → Bool} {q : β → Bool} {as : List α} {bs : List β}
    (related : List.Forall₂ R as bs) (same : ∀ a b, R a b → p a = q b) : as.countP p = bs.countP q := by
  induction related with
  | nil => rfl
  | cons head _ ih => rw [List.countP_cons, List.countP_cons, ih, same _ _ head]

theorem related_of_mem {α β : Type*} {R : α → β → Prop} {as : List α} {bs : List β} (related : List.Forall₂ R as bs)
    {b : β} (member : b ∈ bs) : ∃ a ∈ as, R a b := by
  induction related with
  | nil => cases member
  | cons head _ ih =>
    obtain rfl | inside := List.mem_cons.mp member
    · exact ⟨_, List.mem_cons_self, head⟩
    · obtain ⟨a, among, holds⟩ := ih inside
      exact ⟨a, List.mem_cons_of_mem _ among, holds⟩

/-- Bytes that arrive in these pieces. -/
def arriving (chunks : List (UInt8 × Bytes)) : List Arrival := chunks.map fun chunk => .bytes chunk.1 chunk.2

section

variable {τ : Type*} (decode : Bytes → Option Message) (encode : τ → Message → Bytes) (nodeId : String)

theorem registers_of_decode {payload : Bytes} {message : Message} (decoded : decode payload = some message) :
    registers decode payload = message.isRegistration := by
  unfold registers Message.isRegistration
  rw [decoded]
  exact (beq_eq_decide _ _).symm

/-- Whatever the link does and however the fusion node runs, where the bytes of one connection reach the other end
    in order, up to a cut: the node hands on a front of the messages the link wrote there, the registration first,
    and the link only holds itself registered on a connection on which the node has acknowledged it. -/
theorem both_ends_agree (node : Node) (ops : List Op) (events : List (DmmModel.Event τ)) (c k : Nat)
    (payloads : List Bytes) (wire : Bytes) (conn : Connection)
    (sent : List.Forall₂ (fun message payload => decode payload = some message ∧ payload.length < 2^32)
      (messagesOn c (ops.foldl (World.apply decode node) World.new).trace) payloads)
    (opened : (Channel.spawned events)[k]? = some wire) (travelled : wire <+: payloads.flatMap frame)
    (found : (run decode encode nodeId events).tasks[k]? = some conn)
    (answered : arrivedOn c (ops.foldl (World.apply decode node) World.new).trace <+: conn.acks.flatten) :
    ∃ out : Nat → List Bytes,
      Channel.Interleaves out ((run decode encode nodeId events).received ++ (run decode encode nodeId events).channel) ∧
      (∃ messages, messages <+: messagesOn c (ops.foldl (World.apply decode node) World.new).trace ∧
        List.Forall₂ (fun message payload => decode payload = some message) messages (out k)) ∧
      (∀ payload, (out k).head? = some payload → registers decode payload = true) ∧
      conn.acks.length ≤ (messagesOn c (ops.foldl (World.apply decode node) World.new).trace).countP Message.isRegistration ∧
      (returnedOn c (ops.foldl (World.apply decode node) World.new).trace).flatMap frame <+: conn.acks.flatten ∧
      ((ops.foldl (World.apply decode node) World.new).link.writer = some c → conn.acks ≠ []) := by
  have introduced := run_introduced decode node ops
  generalize ops.foldl (World.apply decode node) World.new = w at introduced sent answered ⊢
  obtain ⟨settled, introduced⟩ := introduced
  obtain ⟨out, sound⟩ :=
    Channel.run_sound (serves_keeps decode encode nodeId fun _ => True) channelFrames ⟨0, 0⟩ events fun _ _ => trivial
  have small : ∀ payload ∈ payloads, payload.length < 2^32 := by
    intro payload member
    obtain ⟨message, _, _, small⟩ := related_of_mem sent member
    exact small
  have carried_front := carried_cut small travelled
  obtain ⟨handled, front, of, acks⟩ := (sound.kept k wire conn opened found).handed
  have handled_front := front.trans carried_front
  have out_front : out k <+: payloads := by
    obtain rfl | ⟨last, rfl⟩ := of
    · exact handled_front
    · exact (List.prefix_append _ _).trans handled_front
  have written : ∃ messages, messages <+: messagesOn c w.trace ∧
      List.Forall₂ (fun message payload => decode payload = some message) messages (out k) := by
    obtain ⟨rest, rfl⟩ := out_front
    exact ⟨_, List.take_prefix _ _, (List.forall₂_take_append _ _ _ sent).imp fun _ _ both => both.1⟩
  refine ⟨out, sound.merged, written, ?_, ?_, (settled.past c).trans answered, ?_⟩
  · intro payload head
    obtain ⟨messages, cut, related⟩ := written
    obtain ⟨rest, split⟩ : ∃ rest, out k = payload :: rest := List.head?_eq_some_iff.mp head
    rw [split] at related
    obtain ⟨message, later, decoded, _, rfl⟩ := List.forall₂_cons_right_iff.mp related
    obtain ⟨more, whole⟩ := cut
    rw [registers_of_decode decode decoded]
    apply introduced.first c message
    rw [← whole]
    rfl
  · have counted := countP_of_forall₂ (p := Message.isRegistration) (q := registers decode) sent
      fun message payload both => (registers_of_decode decode both.1).symm
    rw [acks.length, counted]
    exact handled_front.sublist.countP_le
  · intro writer none
    obtain ⟨payload, member, _⟩ := (settled.acked c writer).2
    have read : payload ∈ returnedOn c w.trace :=
      List.mem_filterMap.mpr ⟨_, member, if_pos rfl⟩
    have nothing := (settled.past c).trans answered
    rw [none, List.flatten_nil, List.prefix_nil, List.flatMap_eq_nil_iff] at nothing
    exact absurd (nothing payload read) (by simp [frame, u32LeBytes])

end

def sensorNode : Node := ⟨"sensor-7"⟩

def ackMessage : Message := ⟨some (.registrationAck ⟨some true, []⟩), some "fusion-1", some "sensor-7"⟩

def bothDecode (payload : Bytes) : Option Message :=
  if payload = [1] then some sensorNode.registration else if payload = [9] then some ackMessage else none

def ackDial : Dial := ⟨.connected, true, arriving [(1, [0]), (0, [0, 9])]⟩

def registeringRun : List (DmmModel.Event Unit) :=
  [.spawn (frame [1]), .turn 0 (.poll 9 ()), .turn 0 (.poll 9 ()), .turn 0 (.ackWritten true), .send 0, .receive]

def acknowledgedConnection : Connection := ⟨⟨[], [], false⟩, .reading, [frame [9]]⟩

theorem registeringRun_acknowledges :
    (run bothDecode (fun (_ : Unit) _ => [9]) "fusion-1" registeringRun).tasks[0]? = some acknowledgedConnection := by
  decide

theorem registering_ends_agree :
    ∃ out : Nat → List Bytes,
      Channel.Interleaves out
        ((run bothDecode (fun (_ : Unit) _ => [9]) "fusion-1" registeringRun).received ++
          (run bothDecode (fun (_ : Unit) _ => [9]) "fusion-1" registeringRun).channel) ∧
      (∀ payload, (out 0).head? = some payload → registers bothDecode payload = true) ∧
      (([Op.ensureRegistered ackDial].foldl (World.apply bothDecode sensorNode) World.new).link.writer = some 0 →
        acknowledgedConnection.acks ≠ []) := by
  obtain ⟨out, merged, _, first, _, _, held⟩ := both_ends_agree bothDecode (fun (_ : Unit) _ => [9]) "fusion-1" sensorNode
    [.ensureRegistered ackDial] registeringRun 0 0 [[1]] (frame [1]) acknowledgedConnection
    (.cons ⟨by decide, by decide⟩ .nil) rfl (by decide) registeringRun_acknowledges (by decide)
  exact ⟨out, merged, first, held⟩

section

variable {τ : Type*} (decode : Bytes → Option Message) (encode : τ → Message → Bytes) (nodeId : String)

/-- However its bytes are cut, a whole frame is read, and reading touches no counter. -/
theorem readFrame_whole {w : World} {payload rest : Bytes} (fits : payload.length ≤ maxMessageLen) (conn : Nat)
    (chunks : List (UInt8 × Bytes))
    (stream : w.link.held ++ chunks.flatMap (fun chunk => chunk.1 :: chunk.2) = frame payload ++ rest) :
    ∃ held trace later, w.readFrame conn (arriving chunks) =
      ({ w with link := { w.link with held := held }, trace := trace }, some (.ok payload), later) := by
  induction chunks generalizing w with
  | nil =>
    rw [List.flatMap_nil] at stream
    rw [arriving, List.map_nil, World.readFrame.eq_def]
    obtain ⟨_, more⟩ | ⟨more, found, _⟩ := unframe_next fits stream
    · exact absurd rfl more
    · rw [found]
      exact ⟨_, _, _, rfl⟩
  | cons chunk chunks ih =>
    rw [arriving, List.map_cons, World.readFrame.eq_def]
    obtain ⟨short, _⟩ | ⟨more, found, _⟩ := unframe_next fits stream
    · rw [List.flatMap_cons, ← List.append_assoc] at stream
      have next := ih (w := { w with
        link := { w.link with held := w.link.held ++ chunk.1 :: chunk.2 }
        trace := w.trace ++ [.arrived conn (chunk.1 :: chunk.2)] }) stream
      obtain need | ⟨declared, present, need⟩ := short
      · rw [need]
        exact next
      · rw [need]
        exact next
    · rw [found]
      exact ⟨_, _, _, rfl⟩

/-- Once the fusion node has acknowledged the registration of a connection, the link that registers there succeeds,
    however the reply is cut on its way. -/
theorem acknowledged_link_registers (node : Node) (w : World) (down : w.isConnected = false)
    (events : List (DmmModel.Event τ)) (k : Nat) (payload rest : Bytes) (conn : Connection)
    (decoded : decode payload = some node.registration) (fits : payload.length ≤ maxMessageLen)
    (opened : (Channel.spawned events)[k]? = some (frame payload ++ rest))
    (found : (run decode encode nodeId events).tasks[k]? = some conn) (acked : conn.acks ≠ [])
    (read_back : ∀ now,
      decode (encode now ⟨some (.registrationAck ⟨some true, []⟩), some nodeId, some node.nodeId⟩) =
        some ⟨some (.registrationAck ⟨some true, []⟩), some nodeId, some node.nodeId⟩ ∧
      (encode now ⟨some (.registrationAck ⟨some true, []⟩), some nodeId, some node.nodeId⟩).length ≤ maxMessageLen)
    (chunks : List (UInt8 × Bytes))
    (arrived : conn.acks.flatten <+: chunks.flatMap fun chunk => chunk.1 :: chunk.2) :
    (w.ensureRegistered decode node ⟨.connected, true, arriving chunks⟩).2 = .ok () ∧
      (w.ensureRegistered decode node ⟨.connected, true, arriving chunks⟩).1.link.up = 1 ∧
      (w.ensureRegistered decode node ⟨.connected, true, arriving chunks⟩).1.isConnected = true ∧
      (w.ensureRegistered decode node ⟨.connected, true, arriving chunks⟩).1.link.rejectedRegistrations =
        w.link.rejectedRegistrations := by
  obtain ⟨out, sound⟩ :=
    Channel.run_sound (serves_keeps decode encode nodeId fun _ => True) channelFrames ⟨0, 0⟩ events fun _ _ => trivial
  obtain ⟨handled, front, _, answered⟩ := (sound.kept k _ conn opened found).handed
  have registration : registers decode payload = true := by
    rw [registers_of_decode decode decoded]
    rfl
  -- The first acknowledgement answers the first frame, which is the registration.
  obtain ⟨now, more, first⟩ : ∃ now more, conn.acks =
      frame (encode now ⟨some (.registrationAck ⟨some true, []⟩), some nodeId, some node.nodeId⟩) :: more := by
    rw [carried_ok (unframe_frame fits rest)] at front
    cases handled with
    | nil => exact absurd (List.forall₂_nil_left_iff.mp answered) acked
    | cons p handled =>
      obtain ⟨rfl, _⟩ := List.cons_prefix_cons.mp front
      unfold Answered at answered
      rw [List.filter_cons_of_pos registration] at answered
      obtain ⟨ack, more, ⟨now, answers⟩, _, split⟩ := List.forall₂_cons_left_iff.mp answered
      refine ⟨now, more, ?_⟩
      unfold registrationAck at answers
      rw [decoded] at answers
      dsimp only at answers
      rw [if_pos (show node.registration.content = some .registration from rfl)] at answers
      rw [split, ← Option.some.inj answers]
      rfl
  obtain ⟨known, bound⟩ := read_back now
  obtain ⟨after, whole⟩ := arrived
  rw [first, List.flatten_cons, List.append_assoc] at whole
  have written : w.connect.write node.registration true =
      ({ w.connect with trace := w.connect.trace ++ [.wrote w.opened node.registration] }, .ok ()) := rfl
  obtain ⟨held, trace, later, read⟩ := readFrame_whole
    (w := { w.connect with trace := w.connect.trace ++ [.wrote w.opened node.registration] }) bound w.opened chunks
    whole.symm
  have message : World.readMessage decode { w.connect with trace := w.connect.trace ++ [.wrote w.opened node.registration] }
      (arriving chunks) = ({ w.connect with link := { w.connect.link with held := held }, trace := trace },
        some (.ok ⟨some (.registrationAck ⟨some true, []⟩), some nodeId, some node.nodeId⟩), later) := by
    rw [World.readMessage]
    dsimp only [World.connect] at read ⊢
    rw [read]
    dsimp only
    rw [known]
  have registered : w.ensureRegistered decode node ⟨.connected, true, arriving chunks⟩ =
      ({ w.connect with link := { w.connect.link with held := held, up := 1 }, trace := trace }, .ok ()) := by
    rw [World.ensureRegistered, if_neg (by rw [down]; decide)]
    dsimp only
    rw [World.register, written]
    dsimp only
    rw [World.awaitAck, message]
    dsimp only
    rw [if_neg (by decide)]
  rw [registered]
  exact ⟨rfl, rfl, rfl, rfl⟩

end

theorem ackDial_registers :
    (World.new.ensureRegistered bothDecode sensorNode ackDial).2 = .ok () ∧
      (World.new.ensureRegistered bothDecode sensorNode ackDial).1.link.up = 1 ∧
      (World.new.ensureRegistered bothDecode sensorNode ackDial).1.isConnected = true ∧
      (World.new.ensureRegistered bothDecode sensorNode ackDial).1.link.rejectedRegistrations = 0 :=
  acknowledged_link_registers bothDecode (fun (_ : Unit) _ => [9]) "fusion-1" sensorNode World.new rfl registeringRun 0
    [1] [] acknowledgedConnection (by decide) (by decide) rfl registeringRun_acknowledges (by decide)
    (fun _ => ⟨by decide, by decide⟩) [(1, [0]), (0, [0, 9])] (by decide)

end DmmProof
