import AjarConnectors.ByteString.BigEndian
import AjarConnectors.Stanag4586.Parser

namespace Stanag4586Model

open EventModel BuilderModel

/-- A 32-bit number as it stands on the wire. -/
def be (v : UInt32) : List UInt8 := ByteString.digits v.toNat 4

/-- A message of the wrapper's format. -/
structure Message where
  version : List UInt8
  instanceId : UInt32
  messageType : UInt32
  streamId : UInt32
  packetSeq : UInt32
  body : List UInt8
  versionFits : version.length = 10
  bodyFits : body.length < 2^31

namespace Message

/-- What the checksum covers. -/
def covered (m : Message) : List UInt8 :=
  m.version ++ (be m.instanceId ++ (be m.messageType ++ (be (UInt32.ofNat m.body.length) ++
    (be m.streamId ++ (be m.packetSeq ++ m.body)))))

/-- A message with a correct checksum. -/
def wrap (m : Message) : List UInt8 := m.covered ++ be (byteSum m.covered)

def isInertial (m : Message) : Bool := m.messageType == msgInertialStates

end Message

/-- Too short for a header and a checksum, or declared longer than it is. -/
def EndsWalk (tail : List UInt8) : Prop :=
  tail.length < header + checksum ∨
    tail.length < header + ByteString.number ((tail.drop 18).take 4) + checksum

end Stanag4586Model

namespace Stanag4586Proof

open Stanag4586Model EventModel BuilderModel

@[simp] theorem be_length (v : UInt32) : (be v).length = 4 := ByteString.digits_length _ _

@[simp] theorem number_be (v : UInt32) : ByteString.number (be v) = v.toNat := ByteString.number_digits_of_lt v.toNat_lt

theorem ofNat_number_be (v : UInt32) : UInt32.ofNat (ByteString.number (be v)) = v := by
  rw [number_be, UInt32.ofNat_toNat]

section

variable {frame x rest : List UInt8} {off : Nat} (here : frame.drop off = x ++ rest) (begun : off ≤ frame.length)
include here begun

theorem inside_frame : off + x.length ≤ frame.length := by
  have size := congrArg List.length here
  rw [List.length_drop, List.length_append] at size
  omega

theorem beU32_inside {k : Nat} (fits : k + 4 ≤ x.length) :
    beU32 frame (off + k) = UInt32.ofNat (ByteString.number ((x.drop k).take 4)) := by
  have inside := inside_frame here begun
  have bytes : (frame.drop (off + k)).take 4 = (x.drop k).take 4 := by
    rw [← List.drop_drop, here, List.drop_append_of_le_length (by omega), List.take_append_of_le_length]
    rw [List.length_drop]
    omega
  rw [beU32, getRange, if_pos (by omega), bytes]
  rfl

theorem slice_inside {a b : Nat} (ordered : a ≤ b) (fits : b ≤ x.length) :
    slice frame (off + a) (off + b) = some ((x.drop a).take (b - a)) := by
  have inside := inside_frame here begun
  have width : off + b - (off + a) = b - a := by omega
  rw [slice, if_pos (by omega), width, ← List.drop_drop, here, List.drop_append_of_le_length (by omega),
    List.take_append_of_le_length]
  rw [List.length_drop]
  omega

end

section

variable (platform : Platform) (p : S4586Parser) (draws : Nat → Draw) {frame x rest : List UInt8} {off : Nat}

/-- One turn of the walk over bytes that are as long as they declare. -/
theorem walk_turn (here : frame.drop off = x ++ rest) (begun : off ≤ frame.length) (long : header + checksum ≤ x.length)
    (declared : ByteString.number ((x.drop 18).take 4) = x.length - (header + checksum)) (turns : Nat) (events : List Event) :
    p.walk platform draws frame (turns + 1) off events =
      if byteSum (x.take (x.length - 4)) ≠ UInt32.ofNat (ByteString.number (x.drop (x.length - 4))) then
        some (.error (.checksum (UInt32.ofNat (ByteString.number ((x.drop 14).take 4)))))
      else if UInt32.ofNat (ByteString.number ((x.drop 14).take 4)) = msgInertialStates then
        match p.decodeInertial platform (draws events.length) ((x.drop 30).take (x.length - (header + checksum))) x with
        | none => none
        | some (.error e) => some (.error e)
        | some (.ok event) => p.walk platform draws frame turns (off + x.length) (events ++ [event])
      else p.walk platform draws frame turns (off + x.length) events := by
  have inside := inside_frame here begun
  have widths : header = 30 ∧ checksum = 4 := ⟨rfl, rfl⟩
  rw [widths.1, widths.2] at long declared ⊢
  have length : (beU32 frame (off + 18)).toNat = x.length - 34 := by
    rw [beU32_inside here begun (by omega), declared, UInt32.toNat_ofNat']
    have below := ByteString.number_lt ((x.drop 18).take 4)
    have most : ((x.drop 18).take 4).length ≤ 4 := List.length_take_le _ _
    have power : 256^((x.drop 18).take 4).length ≤ 256^4 := Nat.pow_le_pow_right (by decide) most
    omega
  have ends : off + 30 + (x.length - 34) + 4 = off + x.length := by omega
  have last : off + x.length - 4 = off + (x.length - 4) := by omega
  have trailer : (x.drop (x.length - 4)).take 4 = x.drop (x.length - 4) := by
    apply List.take_of_length_le
    rw [List.length_drop]
    omega
  have body : off + 30 + (x.length - 34) = off + (x.length - 4) := by omega
  have size : x.length - 4 - 30 = x.length - 34 := by omega
  have front := slice_inside here begun (Nat.zero_le (x.length - 4)) (by omega)
  have whole := slice_inside here begun (Nat.zero_le x.length) (Nat.le_refl _)
  rw [Nat.add_zero, List.drop_zero, Nat.sub_zero] at front whole
  rw [S4586Parser.walk, widths.1, widths.2, if_pos (by omega), length]
  dsimp only
  rewrite [ends, if_neg (by omega), last, front, beU32_inside here begun (by omega), beU32_inside here begun (by omega), trailer,
    body, slice_inside here begun (by omega) (by omega), whole, size, List.take_length]
  rfl

theorem covered_length (m : Message) : m.covered.length = 30 + m.body.length := by
  have version := m.versionFits
  simp only [Message.covered, List.length_append, be_length]
  omega

theorem wrap_length (m : Message) : m.wrap.length = header + checksum + m.body.length := by
  have widths : header = 30 ∧ checksum = 4 := ⟨rfl, rfl⟩
  rw [Message.wrap, List.length_append, covered_length, be_length, widths.1, widths.2]
  omega

theorem wrap_type (m : Message) : (m.wrap.drop 14).take 4 = be m.messageType := by
  have shape : m.wrap = (m.version ++ be m.instanceId) ++ (be m.messageType ++ (be (UInt32.ofNat m.body.length) ++
      (be m.streamId ++ (be m.packetSeq ++ (m.body ++ be (byteSum m.covered)))))) := by simp [Message.wrap, Message.covered]
  have front : (m.version ++ be m.instanceId).length = 14 := by rw [List.length_append, m.versionFits, be_length]
  rw [shape, List.drop_left' front, List.take_left' (be_length _)]

theorem wrap_bodyLen (m : Message) : ByteString.number ((m.wrap.drop 18).take 4) = m.body.length := by
  have shape : m.wrap = (m.version ++ (be m.instanceId ++ be m.messageType)) ++ (be (UInt32.ofNat m.body.length) ++
      (be m.streamId ++ (be m.packetSeq ++ (m.body ++ be (byteSum m.covered))))) := by simp [Message.wrap, Message.covered]
  have front : (m.version ++ (be m.instanceId ++ be m.messageType)).length = 18 := by
    rw [List.length_append, List.length_append, m.versionFits, be_length, be_length]
  have fits := m.bodyFits
  rw [shape, List.drop_left' front, List.take_left' (be_length _), number_be, UInt32.toNat_ofNat']
  omega

theorem wrap_body (m : Message) : (m.wrap.drop 30).take (m.wrap.length - (header + checksum)) = m.body := by
  have shape : m.wrap = (m.version ++ (be m.instanceId ++ (be m.messageType ++ (be (UInt32.ofNat m.body.length) ++
      (be m.streamId ++ be m.packetSeq))))) ++ (m.body ++ be (byteSum m.covered)) := by simp [Message.wrap, Message.covered]
  have front : (m.version ++ (be m.instanceId ++ (be m.messageType ++ (be (UInt32.ofNat m.body.length) ++
      (be m.streamId ++ be m.packetSeq))))).length = 30 := by
    simp only [List.length_append, m.versionFits, be_length]
  rw [wrap_length, Nat.add_sub_cancel_left, shape, List.drop_left' front, List.take_left]

theorem wrap_sum (m : Message) : m.wrap.take (m.wrap.length - 4) = m.covered ∧
    m.wrap.drop (m.wrap.length - 4) = be (byteSum m.covered) := by
  have front : m.covered.length = m.wrap.length - 4 := by
    have width : header + checksum = 34 := rfl
    rw [wrap_length, covered_length, width]
    omega
  exact ⟨List.take_left' front, List.drop_left' front⟩

theorem walk_inertial {m : Message} (here : frame.drop off = m.wrap ++ rest) (begun : off ≤ frame.length)
    (inertial : m.isInertial = true) {events : List Event} {event : Event}
    (builds : p.decodeInertial platform (draws events.length) m.body m.wrap = some (.ok event)) (turns : Nat) :
    p.walk platform draws frame (turns + 1) off events =
      p.walk platform draws frame turns (off + m.wrap.length) (events ++ [event]) := by
  have length := wrap_length m
  have type : m.messageType = msgInertialStates := eq_of_beq inertial
  rw [walk_turn platform p draws here begun (by omega) (by rw [wrap_bodyLen]; omega), (wrap_sum m).1, (wrap_sum m).2, wrap_type,
    wrap_body, ofNat_number_be, ofNat_number_be, type, if_neg (not_not_intro rfl), if_pos rfl, builds]

theorem walk_other {m : Message} (here : frame.drop off = m.wrap ++ rest) (begun : off ≤ frame.length)
    (other : m.isInertial = false) (events : List Event) (turns : Nat) :
    p.walk platform draws frame (turns + 1) off events = p.walk platform draws frame turns (off + m.wrap.length) events := by
  have length := wrap_length m
  have type : m.messageType ≠ msgInertialStates := by
    intro same
    rw [Message.isInertial, same] at other
    cases other
  rw [walk_turn platform p draws here begun (by omega) (by rw [wrap_bodyLen]; omega), (wrap_sum m).1, (wrap_sum m).2, wrap_type,
    ofNat_number_be, ofNat_number_be, if_neg (not_not_intro rfl), if_neg type]

/-- Each message has been decoded to the event at its place. -/
def Decoded (first : Nat) (messages : List Message) (events : List Event) : Prop :=
  events.length = messages.length ∧ ∀ (k : Nat) (m : Message), messages[k]? = some m →
    ∃ event, events[k]? = some event ∧
      p.decodeInertial platform (draws (first + k)) m.body m.wrap = some (.ok event)

theorem walk_messages {messages : List Message} (here : frame.drop off = messages.flatMap Message.wrap ++ rest)
    (begun : off ≤ frame.length) (events : List Event)
    (builds : ∀ (k : Nat) (m : Message), (messages.filter Message.isInertial)[k]? = some m →
      ∃ event, p.decodeInertial platform (draws (events.length + k)) m.body m.wrap = some (.ok event)) (turns : Nat) :
    ∃ decoded, Decoded platform p draws events.length (messages.filter Message.isInertial) decoded ∧
      p.walk platform draws frame (turns + messages.length) off events =
        p.walk platform draws frame turns (off + (messages.flatMap Message.wrap).length) (events ++ decoded) := by
  induction messages generalizing off events with
  | nil =>
    refine ⟨[], ⟨rfl, fun k m found => ?_⟩, ?_⟩
    · cases found
    · rw [List.append_nil]
      rfl
  | cons m messages ih =>
    rw [List.flatMap_cons, List.append_assoc] at here
    have inside := inside_frame here begun
    have next : frame.drop (off + m.wrap.length) = messages.flatMap Message.wrap ++ rest := by
      rw [← List.drop_drop, here, List.drop_left]
    rw [List.length_cons, ← Nat.add_assoc, List.flatMap_cons, List.length_append, ← Nat.add_assoc]
    cases inertial : m.isInertial with
    | false =>
      rw [List.filter_cons_of_neg (by simp [inertial])] at builds ⊢
      rw [walk_other platform p draws here begun inertial]
      exact ih next inside events builds
    | true =>
      rw [List.filter_cons_of_pos inertial] at builds ⊢
      obtain ⟨event, built⟩ := builds 0 m rfl
      rw [walk_inertial platform p draws here begun inertial built]
      have later : ∀ (k : Nat) (n : Message), (messages.filter Message.isInertial)[k]? = some n →
          ∃ made, p.decodeInertial platform (draws ((events ++ [event]).length + k)) n.body n.wrap = some (.ok made) := by
        intro k n found
        have place : (events ++ [event]).length + k = events.length + (k + 1) := by
          rw [List.length_append, List.length_singleton]
          omega
        rw [place]
        exact builds (k + 1) n found
      obtain ⟨decoded, ⟨count, each⟩, run⟩ := ih next inside (events ++ [event]) later
      refine ⟨event :: decoded, ⟨?_, fun k n found => ?_⟩, ?_⟩
      · rw [List.length_cons, List.length_cons, count]
      · cases k with
        | zero =>
          obtain rfl := Option.some.inj found
          exact ⟨event, rfl, built⟩
        | succ k =>
          obtain ⟨made, listed, decodes⟩ := each k n found
          have place : (events ++ [event]).length + k = events.length + (k + 1) := by
            rw [List.length_append, List.length_singleton]
            omega
          rw [place] at decodes
          exact ⟨made, listed, decodes⟩
      · rw [run, List.append_assoc]
        rfl

theorem walk_tail {tail : List UInt8} (here : frame.drop off = tail) (begun : off ≤ frame.length) (ends : EndsWalk tail)
    (turns : Nat) (events : List Event) : p.walk platform draws frame (turns + 1) off events = some (.ok events) := by
  have widths : header = 30 ∧ checksum = 4 := ⟨rfl, rfl⟩
  have size := congrArg List.length here
  rw [List.length_drop] at size
  rw [S4586Parser.walk]
  rw [EndsWalk, widths.1, widths.2] at ends
  rw [widths.1, widths.2]
  by_cases room : off + 30 + 4 ≤ frame.length
  · have whole : frame.drop off = tail ++ [] := by rw [here, List.append_nil]
    have declared := beU32_inside whole begun (k := 18) (by omega)
    have below := ByteString.number_lt ((tail.drop 18).take 4)
    have most : ((tail.drop 18).take 4).length ≤ 4 := List.length_take_le _ _
    have power : 256^((tail.drop 18).take 4).length ≤ 256^4 := Nat.pow_le_pow_right (by decide) most
    rw [if_pos room, declared, UInt32.toNat_ofNat']
    dsimp only
    rw [if_pos (by omega)]
  · rw [if_neg room]

theorem byteSum_set (bytes : List UInt8) (i : Nat) (b : UInt8) (inside : i < bytes.length) (other : b ≠ bytes[i]) :
    byteSum (bytes.set i b) ≠ byteSum bytes := by
  have zipped : ∀ l : List UInt8, byteSum l = l.zipIdx.foldl (fun a entry => a + entry.1.toUInt32) 0 := by
    intro l
    rw [byteSum, ← List.foldl_map (f := Prod.fst) (g := fun a b => a + UInt8.toUInt32 b), List.zipIdx_map_fst]
  rw [zipped, zipped]
  apply ByteString.foldl_set_ne _ _ _ inside other
  · intro entry s t same
    exact (UInt32.add_left_inj _).mp same
  · intro s i b c different same
    exact different (UInt8.toUInt32_inj.mp ((UInt32.add_right_inj _).mp same))

theorem word_number_injective (v w : List UInt8) (left : v.length = 4) (right : w.length = 4)
    (same : UInt32.ofNat (ByteString.number v) = UInt32.ofNat (ByteString.number w)) : v = w := by
  have below := ByteString.number_lt v
  have below' := ByteString.number_lt w
  have numbers := congrArg UInt32.toNat same
  rw [left] at below
  rw [right] at below'
  rw [UInt32.toNat_ofNat', UInt32.toNat_ofNat'] at numbers
  have alike : ByteString.number v = ByteString.number w := by omega
  exact ByteString.number_injective (left.trans right.symm) alike

/-- A message with one byte changed outside its length is refused for its checksum. -/
theorem walk_changed {m : Message} {i : Nat} {b : UInt8} (inside : i < m.wrap.length) (outside : i < 18 ∨ 22 ≤ i)
    (other : b ≠ m.wrap[i]) (here : frame.drop off = m.wrap.set i b ++ rest) (begun : off ≤ frame.length) (turns : Nat)
    (events : List Event) :
    ∃ type, p.walk platform draws frame (turns + 1) off events = some (.error (.checksum type)) := by
  have length := wrap_length m
  have declared : ((m.wrap.set i b).drop 18).take 4 = (m.wrap.drop 18).take 4 := by
    rw [List.drop_set]
    by_cases before : i < 18
    · rw [if_pos before]
    · rw [if_neg before, List.take_set]
      apply List.set_eq_of_length_le
      rw [List.length_take]
      omega
  have closed : byteSum (m.wrap.take (m.wrap.length - 4)) =
      UInt32.ofNat (ByteString.number (m.wrap.drop (m.wrap.length - 4))) := by
    rw [(wrap_sum m).1, (wrap_sum m).2, ofNat_number_be]
  have width : header + checksum = 34 := rfl
  have differs := ByteString.sealed_changed byteSum_set word_number_injective (by omega) closed inside other
  rw [walk_turn platform p draws here begun (by rw [List.length_set]; omega)
    (by rw [declared, wrap_bodyLen, List.length_set]; omega), List.length_set, if_pos differs]
  exact ⟨_, rfl⟩

theorem decodeInertial_returns (draw : Draw) (body raw : List UInt8) :
    ∃ result, p.decodeInertial platform draw body raw = some result := by
  rw [S4586Parser.decodeInertial]
  by_cases short : body.length < inertialBodyLen
  · exact ⟨_, if_pos short⟩
  · have width : inertialBodyLen = 89 := rfl
    have inside : 36 < body.length := by omega
    rw [if_neg short, readInertial, List.getElem?_eq_getElem inside]
    exact ⟨_, rfl⟩

theorem decodeInertial_payload {draw : Draw} {body raw : List UInt8} {event : Event}
    (decodes : p.decodeInertial platform draw body raw = some (.ok event)) : event.payload = raw := by
  rw [S4586Parser.decodeInertial] at decodes
  by_cases short : body.length < inertialBodyLen
  · rw [if_pos short] at decodes
    cases decodes
  · rw [if_neg short] at decodes
    obtain ⟨s, -, made⟩ := Option.map_eq_some_iff.mp decodes
    cases built : Rust.run p.sourceId p.entityType (p.calls platform draw s raw) with
    | error e =>
      rw [built] at made
      cases made
    | ok event =>
      rw [built] at made
      cases made
      obtain ⟨⟨id, ts, shape⟩, -⟩ := BuilderProof.run_ok built
      have records := BuilderProof.eventOf_records p.sourceId p.entityType (p.calls platform draw s raw) id ts
        (lastGiven Call.location? (p.calls platform draw s raw))
      rw [← shape] at records
      rw [records.payload]
      cases hostility : p.hostility with
      | none =>
        rw [S4586Parser.calls, hostility]
        rfl
      | some aff =>
        rw [S4586Parser.calls, hostility]
        rfl

/-- The walk stops, or is at bytes that are as long as they declare. -/
theorem walk_stops_or_turns (begun : off ≤ frame.length) (turns : Nat) (events : List Event) :
    p.walk platform draws frame (turns + 1) off events = some (.ok events) ∨
      ∃ x rest, frame.drop off = x ++ rest ∧ header + checksum ≤ x.length ∧
        ByteString.number ((x.drop 18).take 4) = x.length - (header + checksum) := by
  have widths : header = 30 ∧ checksum = 4 := ⟨rfl, rfl⟩
  by_cases ends : EndsWalk (frame.drop off)
  · exact Or.inl (walk_tail platform p draws rfl begun ends turns events)
  · right
    rw [EndsWalk, not_or, widths.1, widths.2, List.length_drop] at ends
    have size : ((frame.drop off).take (34 + ByteString.number (((frame.drop off).drop 18).take 4))).length =
        34 + ByteString.number (((frame.drop off).drop 18).take 4) := by
      rw [List.length_take, List.length_drop]
      omega
    refine ⟨_, _, (List.take_append_drop (34 + ByteString.number (((frame.drop off).drop 18).take 4)) _).symm, ?_, ?_⟩
    · rw [size, widths.1, widths.2]
      omega
    · rw [size, widths.1, widths.2, List.drop_take, List.take_take, Nat.min_eq_left (by omega)]
      omega

/-- No index or slice of the walk is out of range, and it comes to an end. -/
theorem walk_returns {turns : Nat} (begun : off ≤ frame.length) (enough : frame.length < off + turns) (events : List Event) :
    ∃ result, p.walk platform draws frame turns off events = some result := by
  induction turns generalizing off events with
  | zero => omega
  | succ turns ih =>
    rcases walk_stops_or_turns platform p draws begun turns events with stops | ⟨x, rest, here, long, declared⟩
    · exact ⟨_, stops⟩
    · have inside := inside_frame here begun
      have width : header + checksum = 34 := rfl
      have later := fun events => @ih (off + x.length) inside (by omega) events
      rw [walk_turn platform p draws here begun long declared]
      by_cases sum : byteSum (x.take (x.length - 4)) ≠ UInt32.ofNat (ByteString.number (x.drop (x.length - 4)))
      · rw [if_pos sum]
        exact ⟨_, rfl⟩
      · rw [if_neg sum]
        by_cases type : UInt32.ofNat (ByteString.number ((x.drop 14).take 4)) = msgInertialStates
        · obtain ⟨result, decodes⟩ := decodeInertial_returns platform p (draws events.length)
            ((x.drop 30).take (x.length - (header + checksum))) x
          rw [if_pos type, decodes]
          cases result with
          | error e => exact ⟨_, rfl⟩
          | ok event => exact later _
        · rw [if_neg type]
          exact later _

end

theorem turns_enough (messages : List Message) (rest : List UInt8) :
    ∃ n, (messages.flatMap Message.wrap ++ rest).length + 1 = n + 1 + messages.length := by
  have long : messages.length ≤ (messages.flatMap Message.wrap).length := by
    induction messages with
    | nil => exact Nat.le_refl 0
    | cons m messages ih =>
      have size := wrap_length m
      have width : header + checksum = 34 := rfl
      rw [List.flatMap_cons, List.length_append, List.length_cons]
      omega
  refine ⟨(messages.flatMap Message.wrap ++ rest).length - messages.length, ?_⟩
  rw [List.length_append]
  omega

/-- A datagram of wrapped messages gives the events of its inertial states in order, each with its message as payload; no
    change of one byte outside a length is taken; and whatever arrives, the walk comes to an end. -/
theorem datagram_is_walked (platform : Platform) (p : S4586Parser) (draws : Nat → Draw) (messages : List Message)
    (tail : List UInt8) (builds : ∀ (k : Nat) (m : Message), (messages.filter Message.isInertial)[k]? = some m →
      ∃ event, p.decodeInertial platform (draws k) m.body m.wrap = some (.ok event)) (ends : EndsWalk tail) :
    (∃ events, p.toEvents platform draws (messages.flatMap Message.wrap ++ tail) = some (.ok events) ∧
        events.length = (messages.filter Message.isInertial).length ∧
        ∀ (k : Nat) (m : Message), (messages.filter Message.isInertial)[k]? = some m → ∃ event, events[k]? = some event ∧
          p.decodeInertial platform (draws k) m.body m.wrap = some (.ok event) ∧ event.payload = m.wrap) ∧
      (∀ (before after : List Message) (m : Message) (i : Nat) (b : UInt8) (inside : i < m.wrap.length),
        messages = before ++ m :: after → (i < 18 ∨ 22 ≤ i) → b ≠ m.wrap[i] →
          ∃ type, p.toEvents platform draws
              (before.flatMap Message.wrap ++ (m.wrap.set i b ++ (after.flatMap Message.wrap ++ tail))) =
            some (.error (.checksum type))) ∧
      ∀ frame, ∃ result, p.toEvents platform draws frame = some result := by
  have start : ∀ (k : Nat) (m : Message), (messages.filter Message.isInertial)[k]? = some m →
      ∃ event, p.decodeInertial platform (draws (([] : List Event).length + k)) m.body m.wrap = some (.ok event) := by
    intro k m found
    rw [List.length_nil, Nat.zero_add]
    exact builds k m found
  refine ⟨?_, ?_, fun frame => walk_returns platform p draws (Nat.zero_le _) (by omega) []⟩
  · have whole : (messages.flatMap Message.wrap ++ tail).drop 0 = messages.flatMap Message.wrap ++ tail := rfl
    obtain ⟨n, count⟩ := turns_enough messages tail
    obtain ⟨decoded, ⟨length, each⟩, run⟩ := walk_messages platform p draws whole (Nat.zero_le _) [] start (n + 1)
    have left : (messages.flatMap Message.wrap ++ tail).drop (0 + (messages.flatMap Message.wrap).length) = tail := by
      rw [Nat.zero_add, List.drop_left]
    refine ⟨decoded, ?_, length, fun k m found => ?_⟩
    · rw [S4586Parser.toEvents, count, run]
      apply walk_tail platform p draws left _ ends
      rw [List.length_append]
      omega
    · obtain ⟨event, listed, decodes⟩ := each k m found
      rw [List.length_nil, Nat.zero_add] at decodes
      exact ⟨event, listed, decodes, decodeInertial_payload platform p decodes⟩
  · rintro before after m i b inside rfl outside other
    obtain ⟨rest, isRest⟩ : ∃ rest, rest = m.wrap.set i b ++ (after.flatMap Message.wrap ++ tail) := ⟨_, rfl⟩
    have whole : (before.flatMap Message.wrap ++ rest).drop 0 = before.flatMap Message.wrap ++ rest := rfl
    have early : ∀ (k : Nat) (n : Message), (before.filter Message.isInertial)[k]? = some n →
        ∃ event, p.decodeInertial platform (draws (([] : List Event).length + k)) n.body n.wrap = some (.ok event) := by
      intro k n found
      apply start k n
      obtain ⟨within, -⟩ := List.getElem?_eq_some_iff.mp found
      rw [List.filter_append, List.getElem?_append_left within, found]
    obtain ⟨n, count⟩ := turns_enough before rest
    obtain ⟨decoded, -, run⟩ := walk_messages platform p draws whole (Nat.zero_le _) [] early (n + 1)
    have left : (before.flatMap Message.wrap ++ rest).drop (0 + (before.flatMap Message.wrap).length) =
        m.wrap.set i b ++ (after.flatMap Message.wrap ++ tail) := by
      rw [Nat.zero_add, List.drop_left, isRest]
    rw [← isRest, S4586Parser.toEvents, count, run]
    apply walk_changed platform p draws inside outside other left
    rw [List.length_append]
    omega

/-- Stands where numbers do not matter. -/
def Platform.idle : Platform where
  toSphere := .idle
  widen _ := .zero
  hypot _ _ := ⟨0⟩
  round _ := .zero
  toI128 _ := 0
  rfc3339FromNanos _ := none

def vsm : S4586Parser := ⟨"uas-vsm-1", some "Friend", "mim:aircraft"⟩

def morning : Draw := ⟨"0192f0c1-2a6b-7d3e-8f00-000000000001", "2026-06-10T08:00:00Z"⟩

/-- A message of a type with a body of zeroes. -/
def zeroes (messageType : UInt32) (n : Nat) (fits : n < 2^31) : Message where
  version := [0x38, 0, 0, 0, 0, 0, 0, 0, 0, 0]
  instanceId := 1
  messageType := messageType
  streamId := 0
  packetSeq := 0xffffffff
  body := List.replicate n 0
  versionFits := rfl
  bodyFits := by rwa [List.length_replicate]

def stateBetween : List Message := [zeroes 20 12 (by decide), zeroes 101 89 (by decide), zeroes 2000 0 (by decide)]

theorem state_between_is_found : ∃ events,
    vsm.toEvents Platform.idle (fun _ => morning) (stateBetween.flatMap Message.wrap ++ [0x38, 0]) = some (.ok events) ∧
      events.length = 1 := by
  have builds : ∀ (k : Nat) (m : Message), (stateBetween.filter Message.isInertial)[k]? = some m →
      ∃ event, vsm.decodeInertial Platform.idle morning m.body m.wrap = some (.ok event) := by
    intro k m found
    have only : m ∈ stateBetween.filter Message.isInertial := List.mem_of_getElem? found
    obtain rfl := List.mem_singleton.mp only
    exact ⟨_, rfl⟩
  obtain ⟨events, walked, length, -⟩ :=
    (datagram_is_walked Platform.idle vsm (fun _ => morning) stateBetween [0x38, 0] builds (Or.inl (by decide))).1
  exact ⟨events, walked, length⟩

end Stanag4586Proof
