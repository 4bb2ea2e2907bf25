import AjarConnectors.Framing.Prefixed

namespace FileModel

abbrev Bytes := List UInt8

def maxFrameBytes : Nat := 64 * 1024

/-- The runtime's buffer plus one prefix. -/
def maxHeld : Nat := maxFrameBytes + 4

inductive Framing where
  | line
  | lengthDelimited
  | lengthU32le
  deriving DecidableEq

inductive ReadError where
  | exceedsBuffer (n buffer : Nat)
  | noFrameBoundary
  deriving DecidableEq

structure FileSource where
  framing : Framing
  held : Bytes
  pos : Nat
  deriving DecidableEq

/-- What one `reader.read` gave: a chunk, or nothing, in which case the file's size is looked up
    (`none` where that fails). -/
inductive Reading where
  | chunk (first : UInt8) (rest : Bytes)
  | atEnd (size : Option Nat)
  deriving DecidableEq

namespace FileSource

def openFromStart (framing : Framing) : FileSource := ⟨framing, [], 0⟩

def declared (s : FileSource) : Option (Nat × Nat) :=
  match s.framing with
  | .line => none
  | .lengthDelimited => match s.held with
    | a :: b :: _ => some (2, a.toNat * 256 + b.toNat)
    | _ => none
  | .lengthU32le => match s.held with
    | a :: b :: c :: d :: _ => some (4, a.toNat + b.toNat * 2^8 + c.toNat * 2^16 + d.toNat * 2^24)
    | _ => none

def takeFrame (s : FileSource) (bufLen : Nat) : Except ReadError (Option (Bytes × FileSource)) :=
  match s.declared with
  | none => .ok none
  | some (width, n) =>
    if bufLen < n then .error (.exceedsBuffer n bufLen)
    else if s.held.length < width + n then .ok none
    else .ok (some ((s.held.drop width).take n, { s with held := s.held.drop (width + n) }))

def reopenIfRotated (s : FileSource) (size : Option Nat) : FileSource :=
  match size with
  | none => s
  | some len => if len < s.pos then { s with held := [], pos := 0 } else s

/-- The loop of `recv` for a length-prefixed framing; no result means it still waits for the file. -/
def recv (bufLen : Nat) (s : FileSource) (readings : List Reading) :
    Option (Except ReadError Bytes) × FileSource × List Reading :=
  match s.takeFrame bufLen with
  | .error e => (some (.error e), s, readings)
  | .ok (some (frame, s)) => (some (.ok frame), s, readings)
  | .ok none => match readings with
    | [] => (none, s, [])
    | .atEnd size :: later => recv bufLen (s.reopenIfRotated size) later
    | .chunk first rest :: later =>
      let n := rest.length + 1
      if maxHeld < s.held.length + n then (some (.error .noFrameBoundary), { s with pos := s.pos + n }, later)
      else recv bufLen { s with held := s.held ++ first :: rest, pos := s.pos + n } later

/-- What the first `calls` calls of `recv` return, up to one that waits. -/
def received (s : FileSource) : Nat → List Reading → List (Except ReadError Bytes)
  | 0, _ => []
  | calls + 1, readings => match s.recv maxFrameBytes readings with
    | (none, _) => []
    | (some result, s, later) => result :: s.received calls later

end FileSource

def Reading.bytes : Reading → Bytes
  | .chunk first rest => first :: rest
  | .atEnd _ => []

def lengthPrefix? : Framing → Option (Framing.LengthPrefix UInt8)
  | .line => none
  | .lengthDelimited => some Framing.u16Be
  | .lengthU32le => some Framing.u32Le

/-- How many of the first `n` bytes of the stream belong to frames that have not fully arrived. -/
def unfinished (P : Framing.LengthPrefix UInt8) : List Bytes → Nat → Nat
  | [], n => n
  | frame :: frames, n =>
    if P.width + frame.length ≤ n then unfinished P frames (n - (P.width + frame.length)) else n

/-- At each read the unfinished bytes and the new chunk fit into what may be held. -/
def NeverOverfull (P : Framing.LengthPrefix UInt8) (frames : List Bytes) : Nat → List Reading → Prop
  | _, [] => True
  | n, .atEnd _ :: later => NeverOverfull P frames n later
  | n, .chunk _ rest :: later =>
    unfinished P frames n + (rest.length + 1) ≤ maxHeld ∧ NeverOverfull P frames (n + (rest.length + 1)) later

/-- The file is never found shorter than what was read of it. -/
def Unrotated : Nat → List Reading → Prop
  | _, [] => True
  | n, .atEnd size :: later => (∀ len, size = some len → n ≤ len) ∧ Unrotated n later
  | n, .chunk _ rest :: later => Unrotated (n + (rest.length + 1)) later

instance NeverOverfull.decidable (P : Framing.LengthPrefix UInt8) (frames : List Bytes) (n : Nat)
    (readings : List Reading) : Decidable (NeverOverfull P frames n readings) :=
  match readings with
  | [] => isTrue trivial
  | .atEnd _ :: later => NeverOverfull.decidable P frames n later
  | .chunk _ rest :: later =>
    have := NeverOverfull.decidable P frames (n + (rest.length + 1)) later
    inferInstanceAs (Decidable (_ ∧ _))

def allBytes (readings : List Reading) : Bytes := readings.flatMap Reading.bytes

end FileModel
