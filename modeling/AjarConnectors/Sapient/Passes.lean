import AjarConnectors.Sapient.Status
import AjarConnectors.Transition.Run

namespace SapientProof

open SapientModel

variable {decode : Bytes → Option Message} {node : Node} {w : World} {conn : Nat}

/-- What every pass of the loop keeps. -/
structure Marked (decode : Bytes → Option Message) (s : Egress) : Prop where
  orderly : Orderly decode s.world
  plain : ∀ message ∈ s.relay.buffer, message.isPlain = true
  current : s.stopped = true ∨ Current s.firstStatus s.world

section

variable {s : Egress} (accept : Bytes → Option EventModel.Event)

theorem start_marked (bufferMax : Nat) : Marked decode (Egress.start bufferMax) where
  orderly := by
    refine ⟨new_settled, ?_, ?_⟩
    · intro before conn message after split
      cases before <;> cases split
    · intro before conn message info after split
      cases before <;> cases split
  plain := fun message member => by cases member
  current := Or.inr (current_of_down rfl)

theorem Marked.running (marked : Marked decode s) (running : s.stopped = false) : Current s.firstStatus s.world := by
  rcases marked.current with stopped | current
  · exact absurd (running.symm.trans stopped) (by decide)
  · exact current

theorem Marked.ensure (marked : Marked decode s) (running : s.stopped = false) (node : Node) (dial : Dial) :
    Marked decode (s.ensure decode node dial) ∧ (s.ensure decode node dial).stopped = false := by
  unfold Egress.ensure
  split
  · exact ⟨marked, running⟩
  · rename_i down
    rw [Bool.not_eq_true] at down
    have dialled := marked.orderly.ensureRegistered down node dial
    split
    · rename_i w1 ensured
      rw [ensured] at dialled
      exact ⟨⟨dialled.orderly, marked.plain, Or.inr (dialled.accepted rfl).2⟩, running⟩
    · rename_i w1 e ensured
      rw [ensured] at dialled
      exact ⟨⟨dialled.orderly, marked.plain, Or.inr (current_of_down (dialled.refused e rfl))⟩, running⟩

/-- Unless the registration is a late one, the drain finds the link up, the flag set, nothing to
    send, or the peer still refusing. -/
theorem ensure_safe (s : Egress) (pass : Pass) (punctual : ¬ LateRegistration decode node s pass)
    (orderly : Orderly decode s.world) :
    (s.ensure decode node pass.dial).world.isConnected = true ∨ (s.ensure decode node pass.dial).firstStatus = true ∨
      (s.ensure decode node pass.dial).relay.buffer = [] ∨
      ((s.ensure decode node pass.dial).world.ensureRegistered decode node (pass.attempts 0).dial).2 ≠ .ok () := by
  unfold Egress.ensure
  split
  · rename_i connected
    exact Or.inl connected
  · rename_i down
    rw [Bool.not_eq_true] at down
    have dialled := orderly.ensureRegistered down node pass.dial
    have answer := accepted_iff decode node down pass.dial
    split
    · exact Or.inr (Or.inl rfl)
    · rename_i w1 e ensured
      rw [ensured] at dialled answer
      have still : w1.isConnected = false := down_iff.mpr (dialled.refused e rfl)
      refine Or.inr ?_
      by_contra late
      rw [not_or, not_or, not_not] at late
      apply punctual
      refine ⟨down, Bool.not_eq_true _ ▸ late.1, late.2.1, ?_, (accepted_iff decode node still _).mpr late.2.2⟩
      rw [← Bool.not_eq_true, answer]
      intro same
      cases same

theorem Marked.drainFinal (marked : Marked decode s) (node : Node) (attempts : Nat → Attempt) :
    Orderly decode (s.drain decode node attempts).world ∧
      ∀ message ∈ (s.drain decode node attempts).relay.buffer, message.isPlain = true := by
  have drained := drainLoop_orderly node attempts marked.orderly marked.plain s.relay.metrics 0
  exact ⟨drained.1, fun message member => marked.plain message (drained.2.subset member)⟩

theorem Marked.drain (marked : Marked decode s) (running : s.stopped = false) (attempts : Nat → Attempt)
    (safe : s.world.isConnected = true ∨ s.firstStatus = true ∨ s.relay.buffer = [] ∨
      (s.world.ensureRegistered decode node (attempts 0).dial).2 ≠ .ok ()) :
    Marked decode (s.drain decode node attempts) ∧ (s.drain decode node attempts).stopped = false := by
  have drained := marked.drainFinal node attempts
  refine ⟨⟨drained.1, drained.2, Or.inr ?_⟩, running⟩
  exact drainLoop_current node attempts marked.orderly (marked.running running) marked.plain s.relay.metrics safe

theorem push_plain {relay : Relay} {message : Message} (plain : ∀ queued ∈ relay.buffer, queued.isPlain = true)
    (fresh : message.isPlain = true) : ∀ queued ∈ (relay.push message).buffer, queued.isPlain = true := by
  intro queued member
  rw [Relay.push] at member
  split at member
  · rcases List.mem_append.mp member with member | member
    · exact plain queued (List.mem_of_mem_tail member)
    · rw [List.mem_singleton.mp member]
      exact fresh
  · rcases List.mem_append.mp member with member | member
    · exact plain queued member
    · rw [List.mem_singleton.mp member]
      exact fresh

theorem detection_plain {mapper later : Mapper} {event : EventModel.Event} {freshObject freshReport : String}
    {message : Message} (found : mapper.detection node event freshObject freshReport = (later, some message)) :
    message.isPlain = true := by
  unfold Mapper.detection at found
  split at found
  · cases found
  · cases found
    rfl

theorem Marked.onMessage (marked : Marked decode s) (payload : Bytes) (freshObject freshReport : String) :
    Marked decode (s.onMessage accept node payload freshObject freshReport) := by
  unfold Egress.onMessage
  split
  · exact ⟨marked.orderly, marked.plain, marked.current⟩
  · split
    · exact ⟨marked.orderly, marked.plain, marked.current⟩
    · split
      · rename_i found
        exact ⟨marked.orderly, push_plain marked.plain (detection_plain found), marked.current⟩
      · exact ⟨marked.orderly, marked.plain, marked.current⟩

theorem status_content (node : Node) (first : Bool) :
    (node.status first).content = some (.statusReport (if first then .new else .unchanged)) := rfl

theorem status_registration (node : Node) (first : Bool) : (node.status first).isRegistration = false := by
  cases first <;> rfl

/-- A status report goes out on a connection that the flag describes, marked as the flag says. -/
theorem Orderly.status {first : Bool} (orderly : Orderly decode w) (current : Current first w)
    (writer : w.link.writer = some conn) (node : Node) (attempt : Attempt) :
    Orderly decode (w.send decode node (node.status first) attempt.dial attempt.writes).1 ∧
      ((w.send decode node (node.status first) attempt.dial attempt.writes).2 = .ok () →
        Current false (w.send decode node (node.status first) attempt.dial attempt.writes).1) ∧
      (∀ e, (w.send decode node (node.status first) attempt.dial attempt.writes).2 = .error e →
        (w.send decode node (node.status first) attempt.dial attempt.writes).1.link.writer = none) := by
  have connected : w.isConnected = true := by rw [World.isConnected, writer]; rfl
  have settled := orderly.toSettled.send node (node.status first) attempt.dial attempt.writes
  have grown : (w.send decode node (node.status first) attempt.dial attempt.writes).1.trace =
      w.trace ++ [.wrote conn (node.status first)] := by
    rw [World.send, ensureRegistered_connected connected]
    dsimp only
    rw [World.write, writer]
    cases attempt.writes <;> rfl
  have acked := (orderly.acked conn writer).2
  refine ⟨⟨settled, ?_, ?_⟩, ?_, ?_⟩
  · rw [grown]
    apply once_concat orderly.once
    intro other message same registration
    cases same
    exact absurd ((status_registration node first).symm.trans registration) (by decide)
  · rw [grown]
    apply marked_concat orderly.marked
    intro other message info same content
    cases same
    rw [status_content] at content
    refine ⟨acked, ?_⟩
    rw [← current conn writer]
    cases first <;> cases content <;> decide
  · rw [World.send, ensureRegistered_connected connected]
    dsimp only
    rw [World.write, writer]
    cases attempt.writes with
    | false => exact fun same => by cases same
    | true =>
      intro _ other same
      cases writer.symm.trans same
      have reported : Reported (w.trace ++ [.wrote conn (node.status first)]) conn :=
        ⟨node.status first, List.mem_append_right _ (List.mem_singleton_self _), rfl⟩
      constructor
      · intro set
        cases set
      · intro unreported
        exact absurd reported unreported
  · rw [World.send, ensureRegistered_connected connected]
    dsimp only
    rw [World.write, writer]
    cases attempt.writes with
    | false => exact fun _ _ => rfl
    | true => exact fun _ same => by cases same

theorem Marked.onTick (marked : Marked decode s) (running : s.stopped = false) (node : Node) (attempt : Attempt) :
    Marked decode (s.onTick decode node attempt) := by
  unfold Egress.onTick
  split
  · rename_i connected
    rcases Option.isSome_iff_exists.mp connected with ⟨conn, writer⟩
    have next := marked.orderly.status (marked.running running) writer node attempt
    split
    · rename_i w1 sent
      rw [sent] at next
      exact ⟨next.1, marked.plain, Or.inr (next.2.1 rfl)⟩
    · rename_i w1 e failed
      rw [failed] at next
      exact ⟨next.1, marked.plain, Or.inr (current_of_down (next.2.2 e rfl))⟩
  · exact marked

theorem Marked.follows {later : Egress} (marked : Marked decode s) (running : s.stopped = false)
    (follows : Follows s.world later.world) (settled : Settled decode later.world)
    (flag : later.firstStatus = s.firstStatus) (buffer : later.relay.buffer = s.relay.buffer) : Marked decode later where
  orderly := follows.orderly marked.orderly settled
  plain := by
    rw [buffer]
    exact marked.plain
  current := by
    rw [flag]
    exact Or.inr (follows.current (marked.running running))

theorem Marked.onInbound (marked : Marked decode s) (running : s.stopped = false) (connected : s.world.isConnected = true)
    (node : Node) (message : Message) (reply : Attempt) : Marked decode (s.onInbound decode node message reply) := by
  have next := answer_follows decode connected node message reply
  have settled := marked.orderly.toSettled.answer node message reply.dial reply.writes
  unfold Egress.onInbound
  split
  · rename_i w1 answered
    rw [answered] at next settled
    exact marked.follows running next settled rfl rfl
  · rename_i w1 answered
    rw [answered] at next settled
    exact marked.follows running next settled rfl rfl
  · rename_i w1 e answered
    rw [answered] at next settled
    exact marked.follows running next settled rfl rfl

theorem Marked.onWake (marked : Marked decode s) (running : s.stopped = false) (node : Node) (wake : Wake) :
    Marked decode (s.onWake accept decode node wake) := by
  cases wake with
  | shutdown attempts =>
    have drained := marked.drainFinal node attempts
    exact ⟨drained.1, drained.2, Or.inl rfl⟩
  | subscriptionEnded => exact ⟨marked.orderly, marked.plain, Or.inl rfl⟩
  | message payload freshObject freshReport => exact marked.onMessage accept payload freshObject freshReport
  | statusTick attempt => exact marked.onTick running node attempt
  | retry => exact marked

theorem Marked.select (marked : Marked decode s) (running : s.stopped = false) (node : Node) (pass : Pass) :
    Marked decode (s.select accept decode node pass) := by
  unfold Egress.select
  split
  · rename_i connected
    have next := nextInbound_follows marked.orderly pass.listened
    have settled := marked.orderly.toSettled.nextInbound pass.listened
    split
    · rename_i w1 message read
      rw [read] at next settled
      have kept : w1.link.writer = s.world.link.writer := next.2 message rfl
      have marked' : Marked decode { s with world := w1 } := marked.follows running next.1 settled rfl rfl
      apply marked'.onInbound running
      rw [World.isConnected, kept]
      exact connected
    · rename_i w1 e read
      rw [read] at next settled
      exact marked.follows running next.1 settled rfl rfl
    · rename_i w1 read
      rw [read] at next settled
      have marked' : Marked decode { s with world := w1 } := marked.follows running next.1 settled rfl rfl
      exact marked'.onWake accept running node pass.wake
  · exact marked.onWake accept running node pass.wake

theorem Marked.pass (marked : Marked decode s) (pass : Pass) (punctual : ¬ LateRegistration decode node s pass) :
    Marked decode (s.pass accept decode node pass) := by
  unfold Egress.pass
  split
  · exact marked
  · rename_i running
    rw [Bool.not_eq_true] at running
    have ensured := marked.ensure running node pass.dial
    have drained := ensured.1.drain ensured.2 pass.attempts (ensure_safe s pass punctual marked.orderly)
    exact drained.1.select accept drained.2 node pass

end

/-- In every run of the loop without a late registration: each connection carries one registration,
    and the status reports on it follow its acceptance, the first one marked as new information and
    every later one as unchanged. -/
theorem first_status_is_new (accept : Bytes → Option EventModel.Event) (decode : Bytes → Option Message) (node : Node)
    (bufferMax : Nat) (passes : List Pass)
    (punctual : Transition.Allowed (Egress.pass accept decode node)
      (fun s pass => ¬ LateRegistration decode node s pass) (Egress.start bufferMax) passes) :
    OneRegistration (passes.foldl (Egress.pass accept decode node) (Egress.start bufferMax)).world.trace ∧
    StatusMarked decode (passes.foldl (Egress.pass accept decode node) (Egress.start bufferMax)).world.trace := by
  have marked := Transition.invariant (Marked decode)
    (fun _ pass marked punctual => marked.pass accept pass punctual) (start_marked bufferMax) punctual
  exact ⟨marked.orderly.once, marked.orderly.marked⟩

end SapientProof

namespace SapientModel

def testNode : Node := ⟨"node"⟩

def acceptance : Message := ⟨some (.registrationAck ⟨some true, []⟩), none, none⟩

/-- The peer of these runs has one message, an accepting acknowledgement encoded as the byte 1. -/
def testDecode (payload : Bytes) : Option Message := if payload = [1] then some acceptance else none

def testAccept (_ : Bytes) : Option EventModel.Event :=
  some { EventModel.Event.default with id := "e", location := some ⟨.zero, .zero, .zero⟩ }

def accepting : Dial := ⟨.connected, true, [.bytes 1 [0, 0, 0, 1]]⟩

def unreachable : Dial := ⟨.failed, false, []⟩

/-- A pass on a link that needs no registration, whose sends end as `writes` says. -/
def quietPass (writes : Bool) (listened : List Arrival) (wake : Wake) : Pass :=
  ⟨unreachable, fun _ => ⟨unreachable, writes⟩, listened, ⟨unreachable, true⟩, wake⟩

def statusTick : Wake := .statusTick ⟨unreachable, true⟩

def registeringPass : Pass := { quietPass true [] statusTick with dial := accepting }

/-- A report is queued, its send loses the connection, and in the next pass the peer answers the
    drain but not the loop before it. -/
def lateRun : List Pass :=
  [registeringPass,
   quietPass true [] (.message [] "object" "report"),
   quietPass false [] .retry,
   { quietPass true [] statusTick with attempts := fun _ => ⟨accepting, true⟩ }]

def punctualRun : List Pass :=
  [registeringPass, quietPass true [] statusTick, quietPass true [.closed] .retry, registeringPass]

def Event.status : Event → Option (Nat × Info)
  | .wrote conn ⟨some (.statusReport info), _, _⟩ => some (conn, info)
  | _ => none

end SapientModel

namespace SapientProof

open SapientModel

theorem status_of_reported {trace : List Event} (reported : Reported trace conn) :
    ∃ info, (conn, info) ∈ trace.filterMap Event.status := by
  rcases reported with ⟨⟨content, nodeId, destinationId⟩, member, status⟩
  rw [Message.isStatus] at status
  split at status
  · rename_i info found
    dsimp only at found
    subst found
    exact ⟨info, List.mem_filterMap.mpr ⟨_, member, rfl⟩⟩
  · cases status

theorem late_registration_reports_unchanged :
    ¬ StatusMarked testDecode
      (lateRun.foldl (Egress.pass testAccept testDecode testNode) (Egress.start 8)).world.trace := by
  intro marked
  have split : (lateRun.foldl (Egress.pass testAccept testDecode testNode) (Egress.start 8)).world.trace =
      (lateRun.foldl (Egress.pass testAccept testDecode testNode) (Egress.start 8)).world.trace.dropLast ++
        [.wrote 1 (testNode.status false)] := by decide
  have earlier : (lateRun.foldl (Egress.pass testAccept testDecode testNode)
      (Egress.start 8)).world.trace.dropLast.filterMap Event.status = [(0, .new)] := by decide
  have first := (marked _ 1 _ .unchanged [] split rfl).2.mpr fun reported => by
    rcases status_of_reported reported with ⟨info, member⟩
    rw [earlier] at member
    cases List.mem_singleton.mp member
  cases first

theorem punctual_run_is_marked :
    (punctualRun.foldl (Egress.pass testAccept testDecode testNode) (Egress.start 8)).world.trace.filterMap Event.status =
      [(0, .new), (0, .unchanged), (1, .new)] ∧
    StatusMarked testDecode
      (punctualRun.foldl (Egress.pass testAccept testDecode testNode) (Egress.start 8)).world.trace :=
  ⟨by decide, (first_status_is_new testAccept testDecode testNode 8 punctualRun (by decide)).2⟩

end SapientProof
