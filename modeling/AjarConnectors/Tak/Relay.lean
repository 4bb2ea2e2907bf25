import AjarConnectors.Forwarding.Queue
import AjarConnectors.Transition.Run

namespace TakModel

open Forwarding

abbrev Bytes := List UInt8

inductive Delivery where
  | tls (connected : Bool)
  | datagram
  deriving DecidableEq

structure TakLink where
  delivery : Delivery
  reconnects : Nat := 0
  up : Nat
  deriving DecidableEq

/-- How the peer behaves during one send. -/
structure Attempt where
  connects : Bool
  writes : Bool

namespace TakLink

def new (isDatagram : Bool) : TakLink :=
  if isDatagram then { delivery := .datagram, up := 1 } else { delivery := .tls false, up := 0 }

/-- The write on a connected stream; an error drops the connection. -/
def write (link : TakLink) (attempt : Attempt) : TakLink × Bool :=
  if attempt.writes then (link, true) else ({ link with delivery := .tls false, up := 0 }, false)

def send (link : TakLink) (attempt : Attempt) : TakLink × Bool :=
  match link.delivery with
  | .datagram => (link, attempt.writes)
  | .tls true => link.write attempt
  | .tls false =>
    if attempt.connects then
      write { link with delivery := .tls true, reconnects := link.reconnects + 1, up := 1 } attempt
    else ({ link with up := 0 }, false)

end TakLink

/-- The bounded store-and-forward buffer between NATS and the TAK link. -/
abbrev Relay := Queue Bytes

namespace Relay

def new (max : Nat) : Relay := Queue.new max

def push (relay : Relay) (payload : Bytes) : Relay := Queue.push relay payload

/-- `drain`, with the peer's behaviour given send by send; what the link took stands last. -/
def drain (relay : Relay) (attempts : Nat → Attempt) (link : TakLink) : Relay × TakLink × List Bytes :=
  match Queue.drain (fun (state : TakLink × Nat) (_ : Bytes) =>
      match state.1.send (attempts state.2) with
      | (link, taken) => ((link, state.2 + 1), taken)) relay (link, 0) with
  | (relay, (link, _), sent) => (relay, link, sent)

end Relay

/-- One call on the relay. A drain that is cut short ends like one whose next send fails. -/
inductive RelayOp where
  | push (payload : Bytes)
  | drain (attempts : Nat → Attempt)

/-- The relay and its link, with what was pushed and what the link took. -/
structure Relaying where
  relay : Relay
  link : TakLink
  pushed : List Bytes := []
  sent : List Bytes := []

namespace Relaying

def start (max : Nat) (isDatagram : Bool) : Relaying := { relay := Relay.new max, link := TakLink.new isDatagram }

def step (s : Relaying) : RelayOp → Relaying
  | .push payload => { s with relay := Relay.push s.relay payload, pushed := s.pushed ++ [payload] }
  | .drain attempts =>
    match Relay.drain s.relay attempts s.link with
    | (relay, link, sent) => { s with relay := relay, link := link, sent := s.sent ++ sent }

end Relaying

end TakModel

namespace TakProof

open TakModel Forwarding

theorem step_keeps {max : Nat} (s : Relaying) (op : RelayOp) (kept : Keeps max s.pushed s.sent s.relay) :
    Keeps max (s.step op).pushed (s.step op).sent (s.step op).relay := by
  cases op with
  | push payload => exact kept.push payload
  | drain attempts => exact kept.drain _ _

theorem run_keeps (max : Nat) (isDatagram : Bool) (ops : List RelayOp) :
    let s := ops.foldl Relaying.step (Relaying.start max isDatagram)
    Keeps max s.pushed s.sent s.relay :=
  Transition.always (fun s : Relaying => Keeps max s.pushed s.sent s.relay) step_keeps ops (Keeps.start max)

end TakProof
