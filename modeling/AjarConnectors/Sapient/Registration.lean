import AjarConnectors.Sapient.Link

namespace SapientModel

def Event.conn : Event → Nat
  | .connected conn | .wrote conn _ | .arrived conn _ | .read conn _ => conn

def Event.isWrite : Event → Bool
  | .wrote _ _ => true
  | _ => false

def Event.chunkOn (conn : Nat) : Event → Bytes
  | .arrived c chunk => if c = conn then chunk else []
  | _ => []

def Event.payloadOn (conn : Nat) : Event → Option Bytes
  | .read c payload => if c = conn then some payload else none
  | _ => none

def arrivedOn (conn : Nat) (trace : List Event) : Bytes := trace.flatMap (Event.chunkOn conn)

def returnedOn (conn : Nat) (trace : List Event) : List Bytes := trace.filterMap (Event.payloadOn conn)

def Message.isRegistration (message : Message) : Bool := message.content == some .registration

def accepts (decode : Bytes → Option Message) (payload : Bytes) : Prop :=
  ∃ message ack, decode payload = some message ∧ message.content = some (.registrationAck ack) ∧
    ack.acceptance = some true

/-- A `RegistrationAck` that accepts was read on this connection. -/
def Acknowledged (decode : Bytes → Option Message) (trace : List Event) (conn : Nat) : Prop :=
  ∃ payload, .read conn payload ∈ trace ∧ accepts decode payload

def Written (trace : List Event) (conn : Nat) : Prop := ∃ message, .wrote conn message ∈ trace

/-- The first message written on a connection is the registration, and every later one comes after
    an accepting acknowledgement read on that connection. -/
def RegistrationFirst (decode : Bytes → Option Message) (trace : List Event) : Prop :=
  ∀ before conn message after, trace = before ++ .wrote conn message :: after →
    (¬ Written before conn ∧ message.isRegistration = true) ∨ Acknowledged decode before conn

end SapientModel

namespace SapientProof

open SapientModel

variable {decode : Bytes → Option Message} {w w' : World} {trace : List Event} {conn : Nat}

theorem acknowledged_mono {before : List Event} (acked : Acknowledged decode before conn) (cut : before <+: trace) :
    Acknowledged decode trace conn := by
  rcases acked with ⟨payload, member, accepted⟩
  exact ⟨payload, cut.subset member, accepted⟩

theorem registrationFirst_concat {event : Event} (first : RegistrationFirst decode trace)
    (allowed : ∀ conn message, event = .wrote conn message →
      (¬ Written trace conn ∧ message.isRegistration = true) ∨ Acknowledged decode trace conn) :
    RegistrationFirst decode (trace ++ [event]) := by
  intro before conn message after split
  rcases List.eq_nil_or_concat' after with rfl | ⟨front, last, rfl⟩
  · have ends := List.append_inj' split rfl
    rw [← ends.1]
    exact allowed conn message (by simpa using ends.2)
  · rw [← List.cons_append, ← List.append_assoc] at split
    exact first before conn message front (List.append_inj' split rfl).1

/-- The trace is in order at every moment, also inside an operation: numbers are not reused, and
    the frames returned on a connection are the front of what arrived on it. -/
structure Traced (decode : Bytes → Option Message) (w : World) : Prop where
  first : RegistrationFirst decode w.trace
  fresh : ∀ event ∈ w.trace, event.conn < w.opened
  past : ∀ conn, (returnedOn conn w.trace).flatMap frame <+: arrivedOn conn w.trace
  current : ∀ conn, w.link.reader = some conn →
    conn < w.opened ∧ arrivedOn conn w.trace = (returnedOn conn w.trace).flatMap frame ++ w.link.held

/-- Between operations a connected link is an acknowledged one. -/
structure Settled (decode : Bytes → Option Message) (w : World) : Prop extends Traced decode w where
  halves : w.link.reader = w.link.writer
  down : w.link.writer = none → w.link.up = 0
  acked : ∀ conn, w.link.writer = some conn → w.link.up = 1 ∧ Acknowledged decode w.trace conn

theorem new_settled : Settled decode World.new where
  first := by
    intro before conn message after split
    cases before <;> cases split
  fresh := fun event member => by cases member
  past := fun conn => List.prefix_refl []
  current := fun conn same => by cases same
  halves := rfl
  down := fun _ => rfl
  acked := fun conn same => by cases same

theorem Traced.dropConnection (traced : Traced decode w) : Settled decode w.dropConnection where
  first := traced.first
  fresh := traced.fresh
  past := traced.past
  current := fun conn same => by cases same
  halves := rfl
  down := fun _ => rfl
  acked := fun conn same => by cases same

theorem u32LeBytes_get (data : Bytes) (width : data.length = prefixLen) :
    u32LeBytes (Framing.u32Le.get data) = data := by
  obtain ⟨a, b, c, d, rfl⟩ := List.length_eq_four.mp width
  have ha := a.toNat_lt
  have hb := b.toNat_lt
  have hc := c.toNat_lt
  have hd := d.toNat_lt
  simp only [u32LeBytes, Framing.u32Le, List.foldr_cons, List.foldr_nil, List.cons.injEq, and_true,
    ← UInt8.toNat_inj, UInt8.toNat_ofNat']
  omega

theorem unframe_ok {held payload rest : Bytes} (found : unframe held = .ok (payload, rest)) :
    held = frame payload ++ held.drop (prefixLen + payload.length) := by
  rw [unframe_eq] at found
  split at found
  · cases found
  · rename_i n declared
    split at found
    · cases found
    · split at found
      · cases found
      · rename_i whole
        rw [Framing.LengthPrefix.declared] at declared
        split at declared
        · cases declared
        · rename_i wide
          have front : (held.take prefixLen).length = prefixLen := by
            have : ¬ held.length < prefixLen := wide
            rw [List.length_take]
            omega
          have size : Framing.u32Le.get (held.take prefixLen) = n := Option.some.inj declared
          rw [List.splitAt_eq, Except.ok.injEq, Prod.mk.injEq] at found
          have length : payload.length = n := by
            rw [← found.1, List.length_take, List.length_drop]
            omega
          rw [frame, length, ← size, u32LeBytes_get _ front, size, ← found.1, List.append_assoc, ← List.drop_drop,
            List.take_append_drop, List.take_append_drop]

theorem arrivedOn_concat (conn : Nat) (event : Event) :
    arrivedOn conn (trace ++ [event]) = arrivedOn conn trace ++ event.chunkOn conn := by
  simp [arrivedOn]

theorem returnedOn_concat (conn : Nat) (event : Event) :
    returnedOn conn (trace ++ [event]) = returnedOn conn trace ++ (event.payloadOn conn).toList := by
  cases found : event.payloadOn conn <;> simp [returnedOn, found]

/-- The trace gains events that all meet `p`. -/
def Grows (p : Event → Prop) (w w' : World) : Prop := ∃ events, w'.trace = w.trace ++ events ∧ ∀ event ∈ events, p event

theorem Grows.refl (p : Event → Prop) (w : World) : Grows p w w := ⟨[], by simp, fun event member => by cases member⟩

theorem Grows.trans {p : Event → Prop} {w'' : World} (first : Grows p w w') (second : Grows p w' w'') :
    Grows p w w'' := by
  rcases first with ⟨events, grown, all⟩
  rcases second with ⟨more, regrown, rest⟩
  refine ⟨events ++ more, by rw [regrown, grown, List.append_assoc], ?_⟩
  intro event member
  rcases List.mem_append.mp member with member | member
  · exact all event member
  · exact rest event member

theorem Grows.mono {p q : Event → Prop} (grows : Grows p w w') (weaker : ∀ event, p event → q event) : Grows q w w' := by
  rcases grows with ⟨events, grown, all⟩
  exact ⟨events, grown, fun event member => weaker event (all event member)⟩

theorem Grows.cut {p : Event → Prop} (grows : Grows p w w') : w.trace <+: w'.trace := by
  rcases grows with ⟨events, grown, _⟩
  exact ⟨events, grown.symm⟩

/-- What reading changes: the held bytes and the trace, which gains no write. -/
structure Reads (w w' : World) : Prop where
  reader : w'.link.reader = w.link.reader
  writer : w'.link.writer = w.link.writer
  up : w'.link.up = w.link.up
  grows : Grows (fun event => event.isWrite = false) w w'

theorem Reads.refl (w : World) : Reads w w := ⟨rfl, rfl, rfl, Grows.refl _ w⟩

theorem Reads.trans {w'' : World} (first : Reads w w') (second : Reads w' w'') : Reads w w'' where
  reader := second.reader.trans first.reader
  writer := second.writer.trans first.writer
  up := second.up.trans first.up
  grows := first.grows.trans second.grows

theorem Reads.event {event : Event} (reads : event.isWrite = false) (held : Bytes) :
    Reads w { w with link := { w.link with held := held }, trace := w.trace ++ [event] } := by
  refine ⟨rfl, rfl, rfl, [event], rfl, ?_⟩
  intro other member
  rw [List.mem_singleton.mp member]
  exact reads

theorem written_concat_iff {event : Event} (quiet : ∀ message, event ≠ .wrote conn message) :
    Written (trace ++ [event]) conn → Written trace conn := by
  intro written
  rcases written with ⟨message, member⟩
  rcases List.mem_append.mp member with member | member
  · exact ⟨message, member⟩
  · exact absurd (List.mem_singleton.mp member).symm (quiet message)

theorem prefix_of_append {first second third : Bytes} (same : first = second ++ third) : second <+: first :=
  ⟨third, same.symm⟩

/-- Bytes that arrive on the link's connection join the held bytes. -/
theorem Traced.arrive (traced : Traced decode w) (reader : w.link.reader = some conn) (chunk : Bytes) :
    Traced decode { w with link := { w.link with held := w.link.held ++ chunk },
                           trace := w.trace ++ [.arrived conn chunk] } where
  first := registrationFirst_concat traced.first fun _ _ same => by cases same
  fresh := by
    intro event member
    rcases List.mem_append.mp member with member | member
    · exact traced.fresh event member
    · rw [List.mem_singleton.mp member]
      exact (traced.current conn reader).1
  past := by
    intro other
    rw [arrivedOn_concat, returnedOn_concat]
    simpa [Event.payloadOn] using (traced.past other).trans (List.prefix_append _ _)
  current := by
    intro other same
    have here : conn = other := Option.some.inj (reader.symm.trans same)
    subst here
    have now := traced.current conn reader
    rw [arrivedOn_concat, returnedOn_concat, now.2]
    simp [Event.chunkOn, Event.payloadOn, now.1]

/-- A frame taken off the held bytes was the next one to arrive on that connection. -/
theorem Traced.takeFrame {payload rest : Bytes} (traced : Traced decode w) (reader : w.link.reader = some conn)
    (found : unframe w.link.held = .ok (payload, rest)) :
    Traced decode { w with link := { w.link with held := w.link.held.drop (prefixLen + payload.length) },
                           trace := w.trace ++ [.read conn payload] } := by
  have now := traced.current conn reader
  have taken : arrivedOn conn w.trace = (returnedOn conn w.trace ++ [payload]).flatMap frame ++
      w.link.held.drop (prefixLen + payload.length) := by
    rw [now.2, List.flatMap_append, List.append_assoc]
    simpa using unframe_ok found
  constructor
  · exact registrationFirst_concat traced.first fun _ _ same => by cases same
  · intro event member
    rcases List.mem_append.mp member with member | member
    · exact traced.fresh event member
    · rw [List.mem_singleton.mp member]
      exact now.1
  · intro other
    rw [arrivedOn_concat, returnedOn_concat]
    by_cases same : conn = other
    · subst same
      simpa [Event.chunkOn, Event.payloadOn] using prefix_of_append taken
    · simpa [Event.chunkOn, Event.payloadOn, same] using traced.past other
  · intro other same
    have here : conn = other := Option.some.inj (reader.symm.trans same)
    subst here
    rw [arrivedOn_concat, returnedOn_concat]
    refine ⟨now.1, ?_⟩
    simpa [Event.chunkOn, Event.payloadOn] using taken

theorem Traced.readFrame (traced : Traced decode w) (reader : w.link.reader = some conn) (arrivals : List Arrival) :
    Traced decode (w.readFrame conn arrivals).1 ∧ Reads w (w.readFrame conn arrivals).1 ∧
      ∀ payload, (w.readFrame conn arrivals).2.1 = some (.ok payload) →
        .read conn payload ∈ (w.readFrame conn arrivals).1.trace := by
  induction arrivals generalizing w with
  | nil =>
    rw [World.readFrame.eq_def]
    split
    · rename_i payload rest found
      refine ⟨traced.takeFrame reader found, Reads.event rfl _, ?_⟩
      intro other same
      cases same
      exact List.mem_append_right _ (List.mem_singleton_self _)
    · exact ⟨traced, Reads.refl w, fun payload same => by cases same⟩
    · exact ⟨traced, Reads.refl w, fun payload same => by cases same⟩
  | cons arrival later ih =>
    rw [World.readFrame.eq_def]
    split
    · rename_i payload rest found
      refine ⟨traced.takeFrame reader found, Reads.event rfl _, ?_⟩
      intro other same
      cases same
      exact List.mem_append_right _ (List.mem_singleton_self _)
    · exact ⟨traced, Reads.refl w, fun payload same => by cases same⟩
    · cases arrival with
      | closed => exact ⟨traced, Reads.refl w, fun payload same => by cases same⟩
      | failed => exact ⟨traced, Reads.refl w, fun payload same => by cases same⟩
      | bytes first rest =>
        have step : Reads w { w with link := { w.link with held := w.link.held ++ first :: rest },
                                     trace := w.trace ++ [.arrived conn (first :: rest)] } :=
          Reads.event rfl _
        have next := ih (traced.arrive reader (first :: rest)) reader
        exact ⟨next.1, step.trans next.2.1, next.2.2⟩

theorem Traced.readMessage (traced : Traced decode w) (arrivals : List Arrival) :
    Traced decode (w.readMessage decode arrivals).1 ∧ Reads w (w.readMessage decode arrivals).1 ∧
      ∀ message, (w.readMessage decode arrivals).2.1 = some (.ok message) →
        ∃ conn payload, w.link.reader = some conn ∧ .read conn payload ∈ (w.readMessage decode arrivals).1.trace ∧
          decode payload = some message := by
  unfold World.readMessage
  cases reader : w.link.reader with
  | none => exact ⟨traced, Reads.refl w, fun message same => by cases same⟩
  | some conn =>
    have read := traced.readFrame reader arrivals
    dsimp only
    split
    · rename_i later found
      rw [found] at read
      exact ⟨read.1, read.2.1, fun message same => by cases same⟩
    · rename_i later found
      rw [found] at read
      exact ⟨read.1, read.2.1, fun message same => by cases same⟩
    · rename_i payload later found
      rw [found] at read
      split
      · exact ⟨read.1, read.2.1, fun message same => by cases same⟩
      · rename_i message decoded
        refine ⟨read.1, read.2.1, ?_⟩
        intro other same
        cases same
        exact ⟨conn, payload, rfl, read.2.2 payload rfl, decoded⟩

theorem Traced.awaitAck (rounds : Nat) (traced : Traced decode w) (arrivals : List Arrival) :
    Traced decode (w.awaitAck decode rounds arrivals).1 ∧ Reads w (w.awaitAck decode rounds arrivals).1 ∧
      ∀ ack, (w.awaitAck decode rounds arrivals).2 = some (.ok ack) →
        ∃ conn payload message, w.link.reader = some conn ∧
          .read conn payload ∈ (w.awaitAck decode rounds arrivals).1.trace ∧ decode payload = some message ∧
          message.content = some (.registrationAck ack) := by
  induction rounds generalizing w arrivals with
  | zero => exact ⟨traced, Reads.refl w, fun ack same => by cases same⟩
  | succ rounds ih =>
    have read := traced.readMessage arrivals
    rw [World.awaitAck]
    split
    · rename_i found
      rw [found] at read
      exact ⟨read.1, read.2.1, fun ack same => by cases same⟩
    · rename_i found
      rw [found] at read
      exact ⟨read.1, read.2.1, fun ack same => by cases same⟩
    · rename_i w1 message later found
      rw [found] at read
      split
      · rename_i ack content
        refine ⟨read.1, read.2.1, ?_⟩
        intro other same
        cases same
        rcases read.2.2 message rfl with ⟨conn, payload, reader, member, decoded⟩
        exact ⟨conn, payload, message, reader, member, decoded, content⟩
      · have next := ih read.1 later
        refine ⟨next.1, read.2.1.trans next.2.1, ?_⟩
        intro ack same
        rcases next.2.2 ack same with ⟨conn, payload, message, reader, rest⟩
        exact ⟨conn, payload, message, read.2.1.reader.symm.trans reader, rest⟩

theorem unframe_shorter {held payload rest : Bytes} (taken : unframe held = .ok (payload, rest)) :
    (held.drop (prefixLen + payload.length)).length < held.length := by
  have whole := congrArg List.length (unframe_ok taken)
  rw [List.length_append, frame_eq_encode, Framing.LengthPrefix.encode_length] at whole
  have width : Framing.u32Le.width = prefixLen := rfl
  have four : prefixLen = 4 := rfl
  omega

theorem readFrame_available (conn : Nat) (arrivals : List Arrival) (payload : Bytes)
    (found : (w.readFrame conn arrivals).2.1 = some (.ok payload)) :
    (w.readFrame conn arrivals).1.link.held.length + World.arrivingBytes (w.readFrame conn arrivals).2.2 <
      w.link.held.length + World.arrivingBytes arrivals := by
  induction arrivals generalizing w with
  | nil =>
    rw [World.readFrame.eq_def] at found ⊢
    split at found
    · rename_i taken
      exact Nat.add_lt_add_right (unframe_shorter taken) _
    · cases found
    · cases found
  | cons arrival later ih =>
    rw [World.readFrame.eq_def] at found ⊢
    split at found
    · rename_i taken
      exact Nat.add_lt_add_right (unframe_shorter taken) _
    · cases found
    · cases arrival with
      | closed => cases found
      | failed => cases found
      | bytes first rest =>
        have next := ih found
        have sum : World.arrivingBytes (.bytes first rest :: later) =
            rest.length + 1 + World.arrivingBytes later := by
          simp [World.arrivingBytes]
        dsimp only at next ⊢
        rw [List.length_append, List.length_cons] at next
        omega

theorem readMessage_available (w : World) (decode : Bytes → Option Message) (arrivals : List Arrival) (message : Message)
    (found : (w.readMessage decode arrivals).2.1 = some (.ok message)) :
    (w.readMessage decode arrivals).1.link.held.length +
        World.arrivingBytes (w.readMessage decode arrivals).2.2 <
      w.link.held.length + World.arrivingBytes arrivals := by
  unfold World.readMessage at found ⊢
  cases reader : w.link.reader with
  | none =>
    rw [reader] at found
    cases found
  | some conn =>
    have available := readFrame_available (w := w) conn arrivals
    rw [reader] at found
    dsimp only at found ⊢
    split at found
    · cases found
    · cases found
    · rename_i payload later read
      rw [read] at available
      split at found
      · cases found
      · exact available payload rfl

/-- The rounds `register` gives to `await_ack` are enough: one more changes nothing. -/
theorem awaitAck_rounds (rounds : Nat) (arrivals : List Arrival)
    (enough : w.link.held.length + World.arrivingBytes arrivals < rounds) :
    w.awaitAck decode (rounds + 1) arrivals = w.awaitAck decode rounds arrivals := by
  induction rounds generalizing w arrivals with
  | zero => omega
  | succ rounds ih =>
    have available := readMessage_available w decode arrivals
    rw [World.awaitAck, World.awaitAck]
    split
    · rfl
    · rfl
    · rename_i w1 message later found
      rw [found] at available
      have fewer := available message rfl
      dsimp only at fewer
      split
      · rfl
      · exact ih later (by omega)

theorem Traced.write (traced : Traced decode w) (writer : w.link.writer = some conn) (known : conn < w.opened)
    (message : Message) (writes : Bool)
    (allowed : (¬ Written w.trace conn ∧ message.isRegistration = true) ∨ Acknowledged decode w.trace conn) :
    Traced decode (w.write message writes).1 := by
  have same : (w.write message writes).1 = { w with trace := w.trace ++ [.wrote conn message] } := by
    rw [World.write, writer]
  rw [same]
  constructor
  · apply registrationFirst_concat traced.first
    intro other written same
    cases same
    exact allowed
  · intro event member
    rcases List.mem_append.mp member with member | member
    · exact traced.fresh event member
    · rw [List.mem_singleton.mp member]
      exact known
  · intro other
    rw [arrivedOn_concat, returnedOn_concat]
    simpa [Event.chunkOn, Event.payloadOn] using traced.past other
  · intro other reader
    rw [arrivedOn_concat, returnedOn_concat]
    simpa [Event.chunkOn, Event.payloadOn] using traced.current other reader

theorem absent_of_fresh (traced : Traced decode w) (conn : Nat) (unused : w.opened ≤ conn) :
    arrivedOn conn w.trace = [] ∧ returnedOn conn w.trace = [] ∧ ¬ Written w.trace conn := by
  have other : ∀ event ∈ w.trace, event.conn ≠ conn := fun event member =>
    Nat.ne_of_lt (Nat.lt_of_lt_of_le (traced.fresh event member) unused)
  refine ⟨?_, ?_, ?_⟩
  · rw [arrivedOn, List.flatMap_eq_nil_iff]
    intro event member
    have different := other event member
    cases event <;> simp_all [Event.chunkOn, Event.conn]
  · rw [returnedOn, List.filterMap_eq_nil_iff]
    intro event member
    have different := other event member
    cases event <;> simp_all [Event.payloadOn, Event.conn]
  · intro written
    rcases written with ⟨message, member⟩
    exact other _ member rfl

theorem Traced.connect (traced : Traced decode w) : Traced decode w.connect where
  first := registrationFirst_concat traced.first fun _ _ same => by cases same
  fresh := by
    intro event member
    rcases List.mem_append.mp member with member | member
    · exact Nat.lt_succ_of_lt (traced.fresh event member)
    · rw [List.mem_singleton.mp member]
      exact Nat.lt_succ_self _
  past := by
    intro other
    rw [World.connect, arrivedOn_concat, returnedOn_concat]
    simpa [Event.chunkOn, Event.payloadOn] using traced.past other
  current := by
    intro other reader
    cases reader
    have unused := absent_of_fresh traced w.opened (Nat.le_refl _)
    refine ⟨Nat.lt_succ_self _, ?_⟩
    rw [World.connect, arrivedOn_concat, returnedOn_concat, unused.1, unused.2.1]
    rfl

/-- What a registration on the fresh connection `conn` leaves behind: the link is up on it or down,
    and the registration is all that was written. -/
structure Registering (node : Node) (conn : Nat) (w : World) (outcome : World × Except LinkError Unit) : Prop where
  accepted : outcome.2 = .ok () → outcome.1.link.writer = some conn
  refused : ∀ e, outcome.2 = .error e → outcome.1.link.writer = none
  trace : ∃ rest, outcome.1.trace = w.trace ++ .wrote conn node.registration :: rest ∧
    ∀ event ∈ rest, event.isWrite = false

theorem Registering.refuse {node : Node} {w1 w2 : World} {e : LinkError}
    (wrote : w1.trace = w.trace ++ [.wrote conn node.registration]) (reads : Reads w1 w2) :
    Registering node conn w (w2.dropConnection, .error e) where
  accepted := fun same => by cases same
  refused := fun _ _ => rfl
  trace := by
    rcases reads.grows with ⟨rest, grown, none⟩
    refine ⟨rest, ?_, none⟩
    change w2.trace = _
    rw [grown, wrote, List.append_assoc]
    rfl

theorem Traced.register (traced : Traced decode w) (reader : w.link.reader = some conn)
    (writer : w.link.writer = some conn) (unwritten : ¬ Written w.trace conn) (node : Node) (dial : Dial) :
    Settled decode (w.register decode node dial).1 ∧ Registering node conn w (w.register decode node dial) := by
  have known := (traced.current conn reader).1
  have wrote := traced.write writer known node.registration dial.writes (Or.inl ⟨unwritten, by rfl⟩)
  have kept : (w.write node.registration dial.writes).1.link = w.link ∧
      (w.write node.registration dial.writes).1.trace = w.trace ++ [.wrote conn node.registration] := by
    rw [World.write, writer]
    exact ⟨rfl, rfl⟩
  unfold World.register
  split
  · rename_i w1 e found
    rw [found] at wrote kept
    exact ⟨wrote.dropConnection, Registering.refuse kept.2 (Reads.refl w1)⟩
  · rename_i w1 found
    rw [found] at wrote kept
    have acked := wrote.awaitAck (w1.link.held.length + World.arrivingBytes dial.arrivals + 1) dial.arrivals
    split
    · rename_i w2 waited
      rw [waited] at acked
      exact ⟨acked.1.dropConnection, Registering.refuse kept.2 acked.2.1⟩
    · rename_i w2 e failed
      rw [failed] at acked
      exact ⟨acked.1.dropConnection, Registering.refuse kept.2 acked.2.1⟩
    · rename_i w2 ack answered
      rw [answered] at acked
      have reads := acked.2.1
      split
      · constructor
        · apply Traced.dropConnection
          exact ⟨acked.1.first, acked.1.fresh, acked.1.past, acked.1.current⟩
        · exact Registering.refuse kept.2 ⟨reads.reader, reads.writer, reads.up, reads.grows⟩
      · rename_i accepted
        rcases acked.2.2 ack rfl with ⟨there, payload, message, held, member, decoded, content⟩
        have here : there = conn := by
          have same : w1.link.reader = some conn := by rw [kept.1, reader]
          exact Option.some.inj (held.symm.trans same)
        subst here
        have bound : w2.link.writer = some there := by rw [reads.writer, kept.1, writer]
        have both : w2.link.reader = some there := by rw [reads.reader, kept.1, reader]
        refine ⟨⟨⟨acked.1.first, acked.1.fresh, acked.1.past, acked.1.current⟩, ?_, ?_, ?_⟩, ⟨?_, ?_, ?_⟩⟩
        · exact both.trans bound.symm
        · intro none
          exact absurd (none.symm.trans bound) (by simp)
        · intro other same
          cases bound.symm.trans same
          exact ⟨rfl, payload, member, message, ack, decoded, content, by simpa using accepted⟩
        · exact fun _ => bound
        · intro e same
          cases same
        · rcases reads.grows with ⟨rest, grown, none⟩
          refine ⟨rest, ?_, none⟩
          change w2.trace = _
          rw [grown, kept.2, List.append_assoc]
          rfl

theorem Settled.connectRegister (settled : Settled decode w) (node : Node) (dial : Dial) :
    Settled decode (w.connect.register decode node dial).1 ∧
      Registering node w.opened w.connect (w.connect.register decode node dial) := by
  have unused := (absent_of_fresh settled.toTraced w.opened (Nat.le_refl _)).2.2
  have unwritten : ¬ Written w.connect.trace w.opened :=
    fun written => unused (written_concat_iff (fun _ same => by cases same) written)
  exact settled.toTraced.connect.register rfl rfl unwritten node dial

theorem Settled.ensureRegistered (settled : Settled decode w) (node : Node) (dial : Dial) :
    Settled decode (w.ensureRegistered decode node dial).1 ∧
      ((w.ensureRegistered decode node dial).2 = .ok () →
        ∃ conn, (w.ensureRegistered decode node dial).1.link.writer = some conn) := by
  unfold World.ensureRegistered
  split
  · rename_i connected
    exact ⟨settled, fun _ => Option.isSome_iff_exists.mp connected⟩
  · split
    · exact ⟨settled, fun same => by cases same⟩
    · exact ⟨settled, fun same => by cases same⟩
    · have registered := settled.connectRegister node dial
      exact ⟨registered.1, fun same => ⟨_, registered.2.accepted same⟩⟩

theorem Settled.send (settled : Settled decode w) (node : Node) (message : Message) (dial : Dial) (writes : Bool) :
    Settled decode (w.send decode node message dial writes).1 := by
  have ensured := settled.ensureRegistered node dial
  unfold World.send
  split
  · rename_i w1 e found
    rw [found] at ensured
    exact ensured.1
  · rename_i w1 found
    rw [found] at ensured
    rcases ensured.2 rfl with ⟨conn, writer⟩
    have settled := ensured.1
    have acked := (settled.acked conn writer).2
    have reader : w1.link.reader = some conn := settled.halves.trans writer
    have wrote := settled.toTraced.write writer (settled.current conn reader).1 message writes (Or.inr acked)
    have written : (w1.write message writes).1 = { w1 with trace := w1.trace ++ [.wrote conn message] } := by
      rw [World.write, writer]
    split
    · rename_i w2 e failed
      rw [failed] at wrote
      exact wrote.dropConnection
    · rename_i w2 sent
      rw [sent] at wrote written
      dsimp only at wrote written
      refine ⟨wrote, ?_, ?_, ?_⟩
      · rw [written]
        exact settled.halves
      · rw [written]
        exact settled.down
      · rw [written]
        intro other same
        have before := settled.acked other same
        exact ⟨before.1, acknowledged_mono before.2 (List.prefix_append _ _)⟩

theorem Settled.reads (settled : Settled decode w) (traced : Traced decode w') (reads : Reads w w') :
    Settled decode w' where
  toTraced := traced
  halves := by rw [reads.reader, reads.writer, settled.halves]
  down := by
    rw [reads.writer, reads.up]
    exact settled.down
  acked := by
    intro conn same
    rw [reads.writer] at same
    have before := settled.acked conn same
    exact ⟨reads.up.trans before.1, acknowledged_mono before.2 reads.grows.cut⟩

theorem Settled.nextInbound (settled : Settled decode w) (arrivals : List Arrival) :
    Settled decode (w.nextInbound decode arrivals).1 := by
  have read := settled.toTraced.readMessage arrivals
  unfold World.nextInbound
  split
  · rename_i w1 later found
    rw [found] at read
    exact settled.reads read.1 read.2.1
  · rename_i w1 message later found
    rw [found] at read
    exact settled.reads read.1 read.2.1
  · rename_i w1 e later found
    rw [found] at read
    exact read.1.dropConnection

theorem Settled.answer (settled : Settled decode w) (node : Node) (message : Message) (dial : Dial) (writes : Bool) :
    Settled decode (w.answer decode node message dial writes).1 := by
  unfold World.answer
  split
  · rename_i taskId _
    have sent := settled.send node (node.taskRejected (taskId.getD "") message.nodeId) dial writes
    split
    · rename_i found
      rw [found] at sent
      exact sent
    · rename_i found
      rw [found] at sent
      exact sent
  · exact settled

theorem Settled.apply (settled : Settled decode w) (node : Node) (op : Op) : Settled decode (w.apply decode node op) := by
  cases op with
  | ensureRegistered dial => exact (settled.ensureRegistered node dial).1
  | send message dial writes => exact settled.send node message dial writes
  | nextInbound arrivals => exact settled.nextInbound arrivals
  | answer message dial writes => exact settled.answer node message dial writes
  | dropConnection => exact settled.toTraced.dropConnection

end SapientProof
