import AjarConnectors.Sapient.Relay
import AjarConnectors.Tak.Relay

namespace SapientModel

open Forwarding

/-- One send of a drain; the peer's behaviour is given send by send. -/
def sendNext (decode : Bytes → Option Message) (node : Node) (attempts : Nat → Attempt) (state : World × Nat)
    (message : Message) : (World × Nat) × Bool :=
  match state.1.send decode node message (attempts state.2).dial (attempts state.2).writes with
  | (w, .ok ()) => ((w, state.2 + 1), true)
  | (w, .error _) => ((w, state.2), false)

/-- The queue a relay is, with the two counters of its metrics that it moves. -/
def Relay.asQueue (relay : Relay) : Queue Message :=
  ⟨relay.buffer, relay.max, relay.metrics.delivered, relay.metrics.gapDropped⟩

/-- One call on the relay, or anything else that happens to the link. -/
inductive RelayOp where
  | push (message : Message)
  | drain (attempts : Nat → Attempt)
  | link (w : World)

/-- The relay and its link, with what was pushed and what `send` took. -/
structure Relaying where
  relay : Relay
  world : World
  pushed : List Message := []
  sent : List Message := []

namespace Relaying

def start (max : Nat) (w : World) : Relaying := { relay := Relay.new max Metrics.default, world := w }

variable (decode : Bytes → Option Message) (node : Node)

def step (s : Relaying) : RelayOp → Relaying
  | .push message => { s with relay := s.relay.push message, pushed := s.pushed ++ [message] }
  | .drain attempts =>
    match s.relay.drain decode node attempts s.world with
    | (relay, w) =>
      { s with
        relay := relay
        world := w
        sent := s.sent ++ (drainLoop (sendNext decode node attempts) (s.world, 0) s.relay.buffer).2.1 }
  | .link w => { s with world := w }

end Relaying

end SapientModel

namespace SapientProof

open SapientModel Forwarding

theorem push_asQueue (relay : Relay) (message : Message) :
    (relay.push message).asQueue = relay.asQueue.push message := by
  unfold SapientModel.Relay.push Queue.push
  by_cases full : relay.max ≤ relay.buffer.length
  · rw [if_pos full]
    exact (if_pos full).symm
  · rw [if_neg full]
    exact (if_neg full).symm

section

variable (decode : Bytes → Option Message) (node : Node) (attempts : Nat → Attempt)

/-- The relay's own loop is the queue's, with its sends counted one by one. -/
theorem drainLoop_eq (w : World) (metrics : Metrics) (sent : Nat) (buffer : List Message) :
    Relay.drainLoop decode node attempts w metrics sent buffer =
      match drainLoop (sendNext decode node attempts) (w, sent) buffer with
      | ((w, _), taken, left) => (w, { metrics with delivered := metrics.delivered + taken.length }, left) := by
  induction buffer generalizing w metrics sent with
  | nil => rfl
  | cons front later ih =>
    rw [Relay.drainLoop, drainLoop, sendNext]
    dsimp only
    cases result : w.send decode node front (attempts sent).dial (attempts sent).writes with
    | mk w' outcome =>
      cases outcome with
      | error e => rfl
      | ok =>
        dsimp only
        rw [ih]
        dsimp only
        rw [List.length_cons]
        congr 3
        omega

theorem drain_asQueue (relay : Relay) (w : World) :
    (relay.drain decode node attempts w).1.asQueue =
      (relay.asQueue.drain (sendNext decode node attempts) (w, 0)).1 := by
  unfold SapientModel.Relay.drain Queue.drain
  rw [drainLoop_eq]
  rfl

theorem step_keeps {max : Nat} (s : SapientModel.Relaying) (op : SapientModel.RelayOp)
    (kept : Keeps max s.pushed s.sent s.relay.asQueue) :
    Keeps max (s.step decode node op).pushed (s.step decode node op).sent (s.step decode node op).relay.asQueue := by
  cases op with
  | push message =>
    have next := kept.push message
    rw [← push_asQueue] at next
    exact next
  | drain attempts =>
    have next := kept.drain (sendNext decode node attempts) (s.world, 0)
    rw [← drain_asQueue] at next
    exact next
  | link w => exact kept

theorem run_keeps (max : Nat) (w : World) (ops : List SapientModel.RelayOp) :
    let s := ops.foldl (SapientModel.Relaying.step decode node) (SapientModel.Relaying.start max w)
    Keeps max s.pushed s.sent s.relay.asQueue :=
  Transition.always (fun s : SapientModel.Relaying => Keeps max s.pushed s.sent s.relay.asQueue)
    (step_keeps decode node) ops (Keeps.start max)

end

end SapientProof

namespace EgressProof

open Forwarding

/-- Whatever is pushed, drained and refused in whatever order, either relay accounts for every payload. -/
theorem relays_account_for_every_payload (max : Nat) :
    (∀ (decode : SapientModel.Bytes → Option SapientModel.Message) (node : SapientModel.Node) (w : SapientModel.World)
      (ops : List SapientModel.RelayOp),
      let s := ops.foldl (SapientModel.Relaying.step decode node) (SapientModel.Relaying.start max w)
      Accounted max s.pushed s.sent s.relay.buffer s.relay.metrics.delivered s.relay.metrics.gapDropped) ∧
    ∀ (isDatagram : Bool) (ops : List TakModel.RelayOp),
      let s := ops.foldl TakModel.Relaying.step (TakModel.Relaying.start max isDatagram)
      Accounted max s.pushed s.sent s.relay.buffer s.relay.delivered s.relay.gapDropped := by
  constructor
  · intro decode node w ops
    exact (SapientProof.run_keeps decode node max w ops).accounted
  · intro isDatagram ops
    exact (TakProof.run_keeps max isDatagram ops).accounted

end EgressProof
