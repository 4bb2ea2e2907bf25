import AjarConnectors.Egress.Dedupe
import AjarConnectors.Sapient.Link

namespace SapientModel

open EgressModel

structure Metrics where
  delivered : Nat
  rejected : Nat
  deduped : Nat
  unlocated : Nat
  gapDropped : Nat
  statusSent : Nat
  tasksRefused : Nat

def Metrics.default : Metrics := ⟨0, 0, 0, 0, 0, 0, 0⟩

structure Relay where
  buffer : List Message
  max : Nat
  metrics : Metrics

/-- How the peer behaves while one message is sent. -/
structure Attempt where
  dial : Dial
  writes : Bool

namespace Relay

def new (max : Nat) (metrics : Metrics) : Relay := ⟨[], Nat.max max 1, metrics⟩

def push (relay : Relay) (message : Message) : Relay :=
  if relay.max ≤ relay.buffer.length then
    { relay with
      buffer := relay.buffer.tail ++ [message]
      metrics := { relay.metrics with gapDropped := relay.metrics.gapDropped + 1 } }
  else { relay with buffer := relay.buffer ++ [message] }

variable (decode : Bytes → Option Message) (node : Node)

/-- The loop of `drain` over what is still queued; the peer's behaviour is given send by send. -/
def drainLoop (attempts : Nat → Attempt) (w : World) (metrics : Metrics) (sent : Nat) :
    List Message → World × Metrics × List Message
  | [] => (w, metrics, [])
  | front :: later =>
    match w.send decode node front (attempts sent).dial (attempts sent).writes with
    | (w, .ok ()) => drainLoop attempts w { metrics with delivered := metrics.delivered + 1 } (sent + 1) later
    | (w, .error _) => (w, metrics, front :: later)

def drain (relay : Relay) (attempts : Nat → Attempt) (w : World) : Relay × World :=
  match drainLoop decode node attempts w relay.metrics 0 relay.buffer with
  | (w, metrics, buffer) => ({ relay with metrics := metrics, buffer := buffer }, w)

end Relay

def maxObjects : Nat := 10000

structure Mapper where
  objects : List (String × String)
  order : List String

namespace Mapper

def new : Mapper := ⟨[], []⟩

/-- `fresh` is the ULID drawn should the track be new. -/
def objectId (mapper : Mapper) (fresh key : String) : Mapper × String :=
  match mapper.objects.lookup key with
  | some id => (mapper, id)
  | none =>
    let kept := if maxObjects ≤ mapper.objects.length then
      match mapper.order with
      | [] => mapper
      | old :: order => ⟨mapper.objects.filter fun entry => entry.1 ≠ old, order⟩
    else mapper
    (⟨kept.objects ++ [(key, fresh)], kept.order ++ [key]⟩, fresh)

def sourceUid (event : EventModel.Event) : Option String :=
  (event.metadata.find? fun entry => entry.key == "source_uid").map (·.value)

def detection (mapper : Mapper) (node : Node) (event : EventModel.Event) (freshObject freshReport : String) :
    Mapper × Option Message :=
  match event.location with
  | none => (mapper, none)
  | some location =>
    let uid := (sourceUid event).getD event.id
    let (mapper, object) := mapper.objectId freshObject (event.sourceId ++ ":" ++ uid)
    (mapper, some (node.envelope (.detectionReport ⟨freshReport, object, location, uid⟩)))

end Mapper

def dedupeWindow : Nat := 10000

/-- The variables of `run`'s loop. -/
structure Egress where
  world : World
  relay : Relay
  dedupe : Dedupe
  mapper : Mapper
  firstStatus : Bool
  stopped : Bool

def Egress.start (bufferMax : Nat) : Egress :=
  ⟨World.new, Relay.new bufferMax Metrics.default, Dedupe.new dedupeWindow, Mapper.new, true, false⟩

/-- What ends the `select!` when it is not a message from the fusion node. -/
inductive Wake where
  | shutdown (attempts : Nat → Attempt)
  | subscriptionEnded
  | message (payload : Bytes) (freshObject freshReport : String)
  | statusTick (attempt : Attempt)
  | retry

/-- One pass of the loop: the peer's behaviour at the registration attempt, at each send of the
    drain, while the `select!` listens to it and when it is answered, and what else happens. -/
structure Pass where
  dial : Dial
  attempts : Nat → Attempt
  listened : List Arrival
  reply : Attempt
  wake : Wake

namespace Egress

-- `accept` under the configured egress key.
variable (accept : Bytes → Option EventModel.Event) (decode : Bytes → Option Message) (node : Node)

def ensure (s : Egress) (dial : Dial) : Egress :=
  if s.world.isConnected then s
  else match s.world.ensureRegistered decode node dial with
    | (w, .ok ()) => { s with world := w, firstStatus := true }
    | (w, .error _) => { s with world := w }

def drain (s : Egress) (attempts : Nat → Attempt) : Egress :=
  match s.relay.drain decode node attempts s.world with
  | (relay, w) => { s with relay := relay, world := w }

def onMessage (s : Egress) (payload : Bytes) (freshObject freshReport : String) : Egress :=
  match accept payload with
  | none => { s with relay.metrics.rejected := s.relay.metrics.rejected + 1 }
  | some event => match s.dedupe.firstTime event.id with
    | (dedupe, false) => { s with dedupe := dedupe, relay.metrics.deduped := s.relay.metrics.deduped + 1 }
    | (dedupe, true) => match s.mapper.detection node event freshObject freshReport with
      | (mapper, some report) => { s with dedupe := dedupe, mapper := mapper, relay := s.relay.push report }
      | (mapper, none) =>
        { s with dedupe := dedupe, mapper := mapper, relay.metrics.unlocated := s.relay.metrics.unlocated + 1 }

def onTick (s : Egress) (attempt : Attempt) : Egress :=
  if s.world.isConnected then
    match s.world.send decode node (node.status s.firstStatus) attempt.dial attempt.writes with
    | (w, .ok ()) =>
      { s with world := w, firstStatus := false, relay.metrics.statusSent := s.relay.metrics.statusSent + 1 }
    | (w, .error _) => { s with world := w }
  else s

def onInbound (s : Egress) (message : Message) (reply : Attempt) : Egress :=
  match s.world.answer decode node message reply.dial reply.writes with
  | (w, .ok true) => { s with world := w, relay.metrics.tasksRefused := s.relay.metrics.tasksRefused + 1 }
  | (w, .ok false) => { s with world := w }
  | (w, .error _) => { s with world := w }

def onWake (s : Egress) : Wake → Egress
  -- A final drain cut short by its timeout leaves the trace of one whose last send failed.
  | .shutdown attempts => { s.drain decode node attempts with stopped := true }
  | .subscriptionEnded => { s with stopped := true }
  | .message payload freshObject freshReport => s.onMessage accept node payload freshObject freshReport
  | .statusTick attempt => s.onTick decode node attempt
  | .retry => s

/-- The `select!`. While another branch is awaited, `next_inbound` may already have taken bytes. -/
def select (s : Egress) (pass : Pass) : Egress :=
  if s.world.isConnected then
    match s.world.nextInbound decode pass.listened with
    | (w, some (.ok message)) => onInbound decode node { s with world := w } message pass.reply
    | (w, some (.error _)) => { s with world := w }
    | (w, none) => onWake accept decode node { s with world := w } pass.wake
  else onWake accept decode node s pass.wake

def pass (s : Egress) (pass : Pass) : Egress :=
  if s.stopped then s
  else ((s.ensure decode node pass.dial).drain decode node pass.attempts).select accept decode node pass

end Egress

end SapientModel
