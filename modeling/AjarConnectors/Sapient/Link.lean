import AjarConnectors.Event.Types
import AjarConnectors.Sapient.Wire

namespace SapientModel

structure RegistrationAck where
  acceptance : Option Bool
  ackResponseReason : List String
  deriving DecidableEq

inductive Info where
  | new
  | unchanged
  deriving DecidableEq

structure DetectionReport where
  reportId : String
  objectId : String
  location : EventModel.GeoPoint
  id : String
  deriving DecidableEq

inductive Content where
  | registration
  | registrationAck (ack : RegistrationAck)
  | statusReport (info : Info)
  | detectionReport (report : DetectionReport)
  | task (taskId : Option String)
  | taskAck (taskId : String)
  | error (errorMessage : List String)
  | alert
  deriving DecidableEq

structure Message where
  content : Option Content
  nodeId : Option String
  destinationId : Option String
  deriving DecidableEq

structure Node where
  nodeId : String

namespace Node

def envelope (node : Node) (content : Content) : Message := ⟨some content, some node.nodeId, none⟩

def registration (node : Node) : Message := node.envelope .registration

def status (node : Node) (first : Bool) : Message := node.envelope (.statusReport (if first then .new else .unchanged))

def taskRejected (node : Node) (taskId : String) (sender : Option String) : Message :=
  { node.envelope (.taskAck taskId) with destinationId := sender }

end Node

inductive LinkError where
  | connectTimedOut
  | transport
  | notConnected
  | closed
  | tooLong (declared : Nat)
  | undecodable
  | ackTimedOut
  | registrationRejected (reasons : List String)
  deriving DecidableEq

structure FusionLink where
  reader : Option Nat
  writer : Option Nat
  held : Bytes
  up : Nat
  reconnects : Nat
  rejectedRegistrations : Nat
  everConnected : Bool
  deriving DecidableEq

/-- What happens on the wire, with the number of the TCP connection it happens on. A message counts
    as written once its write has begun. -/
inductive Event where
  | connected (conn : Nat)
  | wrote (conn : Nat) (message : Message)
  | arrived (conn : Nat) (chunk : Bytes)
  | read (conn : Nat) (payload : Bytes)
  deriving DecidableEq

structure World where
  link : FusionLink
  opened : Nat
  trace : List Event
  deriving DecidableEq

def World.new : World := ⟨⟨none, none, [], 0, 0, 0, false⟩, 0, []⟩

/-- What a read gets from the peer. -/
inductive Arrival where
  | bytes (first : UInt8) (rest : Bytes)
  | closed
  | failed
  deriving DecidableEq

inductive Connecting where
  | timedOut
  | failed
  | connected
  deriving DecidableEq

/-- How the peer behaves while a registration is attempted: the connect, the write of the
    registration, and what arrives before the acknowledgement times out. -/
structure Dial where
  connecting : Connecting
  writes : Bool
  arrivals : List Arrival
  deriving DecidableEq

namespace World

def isConnected (w : World) : Bool := w.link.writer.isSome

def dropConnection (w : World) : World :=
  { w with link := { w.link with reader := none, writer := none, held := [], up := 0 } }

def write (w : World) (message : Message) (writes : Bool) : World × Except LinkError Unit :=
  match w.link.writer with
  | none => (w, .error .notConnected)
  | some conn =>
    ({ w with trace := w.trace ++ [.wrote conn message] }, if writes then .ok () else .error .transport)

/-- `read_frame` on the link's reader; no result means that it still waits. -/
def readFrame (conn : Nat) (w : World) (arrivals : List Arrival) :
    World × Option (Except LinkError Bytes) × List Arrival :=
  match unframe w.link.held with
  | .ok (payload, _) =>
    ({ w with link := { w.link with held := w.link.held.drop (prefixLen + payload.length) },
              trace := w.trace ++ [.read conn payload] }, some (.ok payload), arrivals)
  | .error (.tooLong n) => (w, some (.error (.tooLong n)), arrivals)
  | .error _ => match arrivals with
    | [] => (w, none, [])
    | .closed :: later => (w, some (.error .closed), later)
    | .failed :: later => (w, some (.error .transport), later)
    | .bytes first rest :: later =>
      readFrame conn { w with link := { w.link with held := w.link.held ++ first :: rest },
                              trace := w.trace ++ [.arrived conn (first :: rest)] } later

variable (decode : Bytes → Option Message)

def readMessage (w : World) (arrivals : List Arrival) : World × Option (Except LinkError Message) × List Arrival :=
  match w.link.reader with
  | none => (w, some (.error .notConnected), arrivals)
  | some conn => match w.readFrame conn arrivals with
    | (w, none, later) => (w, none, later)
    | (w, some (.error e), later) => (w, some (.error e), later)
    | (w, some (.ok payload), later) => match decode payload with
      | none => (w, some (.error .undecodable), later)
      | some message => (w, some (.ok message), later)

/-- Every message takes at least its prefix, so as many rounds as there are bytes are enough. -/
def awaitAck : Nat → World → List Arrival → World × Option (Except LinkError RegistrationAck)
  | 0, w, _ => (w, none)
  | rounds + 1, w, arrivals => match w.readMessage decode arrivals with
    | (w, none, _) => (w, none)
    | (w, some (.error e), _) => (w, some (.error e))
    | (w, some (.ok message), later) => match message.content with
      | some (.registrationAck ack) => (w, some (.ok ack))
      | _ => awaitAck rounds w later

def arrivingBytes (arrivals : List Arrival) : Nat :=
  (arrivals.map fun | .bytes _ rest => rest.length + 1 | _ => 0).sum

variable (node : Node)

def connect (w : World) : World :=
  { link := { w.link with
      reader := some w.opened
      writer := some w.opened
      held := []
      reconnects := if w.link.everConnected then w.link.reconnects + 1 else w.link.reconnects
      everConnected := true }
    opened := w.opened + 1
    trace := w.trace ++ [.connected w.opened] }

/-- From the write of the registration on. -/
def register (w : World) (dial : Dial) : World × Except LinkError Unit :=
  match w.write node.registration dial.writes with
  | (w, .error e) => (w.dropConnection, .error e)
  | (w, .ok ()) => match w.awaitAck decode (w.link.held.length + arrivingBytes dial.arrivals + 1) dial.arrivals with
    | (w, none) => (w.dropConnection, .error .ackTimedOut)
    | (w, some (.error e)) => (w.dropConnection, .error e)
    | (w, some (.ok ack)) =>
      if ack.acceptance ≠ some true then
        (dropConnection { w with link := { w.link with rejectedRegistrations := w.link.rejectedRegistrations + 1 } },
          .error (.registrationRejected ack.ackResponseReason))
      else ({ w with link := { w.link with up := 1 } }, .ok ())

def ensureRegistered (w : World) (dial : Dial) : World × Except LinkError Unit :=
  if w.isConnected then (w, .ok ())
  else match dial.connecting with
    | .timedOut => (w, .error .connectTimedOut)
    | .failed => (w, .error .transport)
    | .connected => w.connect.register decode node dial

def send (w : World) (message : Message) (dial : Dial) (writes : Bool) : World × Except LinkError Unit :=
  match w.ensureRegistered decode node dial with
  | (w, .error e) => (w, .error e)
  | (w, .ok ()) => match w.write message writes with
    | (w, .error e) => (w.dropConnection, .error e)
    | (w, .ok ()) => (w, .ok ())

/-- No result means that the call still waits; dropping it then leaves the link as it is. -/
def nextInbound (w : World) (arrivals : List Arrival) : World × Option (Except LinkError Message) :=
  match w.readMessage decode arrivals with
  | (w, none, _) => (w, none)
  | (w, some (.ok message), _) => (w, some (.ok message))
  | (w, some (.error e), _) => (w.dropConnection, some (.error e))

def answer (w : World) (message : Message) (dial : Dial) (writes : Bool) : World × Except LinkError Bool :=
  match message.content with
  | some (.task taskId) =>
    match w.send decode node (node.taskRejected (taskId.getD "") message.nodeId) dial writes with
    | (w, .error e) => (w, .error e)
    | (w, .ok ()) => (w, .ok true)
  | _ => (w, .ok false)

end World

inductive Op where
  | ensureRegistered (dial : Dial)
  | send (message : Message) (dial : Dial) (writes : Bool)
  | nextInbound (arrivals : List Arrival)
  | answer (message : Message) (dial : Dial) (writes : Bool)
  | dropConnection
  deriving DecidableEq

def World.apply (decode : Bytes → Option Message) (node : Node) (w : World) : Op → World
  | .ensureRegistered dial => (w.ensureRegistered decode node dial).1
  | .send message dial writes => (w.send decode node message dial writes).1
  | .nextInbound arrivals => (w.nextInbound decode arrivals).1
  | .answer message dial writes => (w.answer decode node message dial writes).1
  | .dropConnection => w.dropConnection

end SapientModel
