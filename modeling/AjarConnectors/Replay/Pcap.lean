import Mathlib.Data.List.Basic
import Mathlib.Algebra.Ring.Nat

namespace ReplayModel

abbrev Bytes := List UInt8

/-- The delay in nanoseconds. -/
structure Datagram where
  delay : Nat
  payload : Bytes
  deriving DecidableEq

structure Capture where
  datagrams : List Datagram
  skipped : Nat
  deriving DecidableEq

inductive PcapError where
  | shorterThanHeader (len : Nat)
  | notClassic (magic : Nat)
  | truncated
  | linkType (linktype : Nat)
  deriving DecidableEq

def u16Be (b0 b1 : UInt8) : Nat := b0.toNat * 256 + b1.toNat

def u32 (le : Bool) (b0 b1 b2 b3 : UInt8) : Nat :=
  if le then b0.toNat + b1.toNat * 2^8 + b2.toNat * 2^16 + b3.toNat * 2^24
  else b0.toNat * 2^24 + b1.toNat * 2^16 + b2.toNat * 2^8 + b3.toNat

/-- Byte order and timestamp resolution. -/
structure Format where
  le : Bool
  nanos : Bool
  deriving DecidableEq

def formatOf (b0 b1 b2 b3 : UInt8) : Except PcapError Format :=
  if u32 true b0 b1 b2 b3 = 0xa1b2c3d4 then .ok ⟨true, false⟩
  else if u32 true b0 b1 b2 b3 = 0xa1b23c4d then .ok ⟨true, true⟩
  else if u32 false b0 b1 b2 b3 = 0xa1b2c3d4 then .ok ⟨false, false⟩
  else if u32 false b0 b1 b2 b3 = 0xa1b23c4d then .ok ⟨false, true⟩
  else .error (.notClassic (u32 false b0 b1 b2 b3))

/-- The first four of some bytes. -/
def u32? (le : Bool) : Bytes → Option Nat
  | b0 :: b1 :: b2 :: b3 :: _ => some (u32 le b0 b1 b2 b3)
  | _ => none

def u32At (le : Bool) (data : Bytes) (off : Nat) : Except PcapError Nat :=
  match u32? le (data.drop off) with
  | none => .error .truncated
  | some n => .ok n

section UdpPayload

def isTag (ethertype : Nat) : Bool := ethertype == 0x8100 || ethertype == 0x88a8

/-- The loop over the tags: the ethertype behind them, and what follows it. -/
def skipTags (ethertype : Nat) : Bytes → Option (Nat × Bytes)
  | t0 :: t1 :: e0 :: e1 :: rest =>
    if isTag ethertype then skipTags (u16Be e0 e1) rest else some (ethertype, t0 :: t1 :: e0 :: e1 :: rest)
  | rest => if isTag ethertype then none else some (ethertype, rest)

def ipv4Packet (frame : Bytes) : Option Bytes :=
  match frame.drop 12 with
  | e0 :: e1 :: rest => match skipTags (u16Be e0 e1) rest with
    | none => none
    | some (ethertype, ip) => if ethertype ≠ 0x0800 then none else some ip
  | _ => none

def udpDatagram : Bytes → Option Bytes
  | [] => none
  | first :: rest =>
    let ihl := first.toNat % 16 * 4
    if ihl < 20 ∨ (first :: rest)[9]? ≠ some 17 ∨ (first :: rest).length < ihl then none
    else some ((first :: rest).drop ihl)

def udpBody (port : Option Nat) (udp : Bytes) : Option Bytes :=
  match udp with
  | _ :: _ :: p0 :: p1 :: l0 :: l1 :: _ =>
    if port.any (· ≠ u16Be p0 p1) then none
    else if u16Be l0 l1 < 8 then none
    else if min (u16Be l0 l1) udp.length < 8 then none
    else some ((udp.take (min (u16Be l0 l1) udp.length)).drop 8)
  | _ => none

def udpPayload (frame : Bytes) (port : Option Nat) : Option Bytes :=
  (ipv4Packet frame).bind fun ip => (udpDatagram ip).bind fun udp => udpBody port udp

end UdpPayload

/-- The result of an addition or multiplication in 64 bits; none is an overflow. -/
def fits64 (n : Nat) : Option Nat := if n < 2^64 then some n else none

/-- `ts_ns`. -/
def timestamp (f : Format) (sec frac : Nat) : Option Nat :=
  (fits64 (sec * 1000000000)).bind fun whole =>
    (if f.nanos then some frac else fits64 (frac * 1000)).bind fun part => fits64 (whole + part)

/-- What the record loop carries along. -/
structure Progress where
  prev : Option Nat
  datagrams : List Datagram
  skipped : Nat
  deriving DecidableEq

namespace Progress

def start : Progress := ⟨none, [], 0⟩

def capture (p : Progress) : Capture := ⟨p.datagrams, p.skipped⟩

def record (port : Option Nat) (p : Progress) (ns : Nat) (frame : Bytes) : Option Progress :=
  match udpPayload frame port with
  | some payload =>
    -- the saturating difference
    let delay := (p.prev.map fun before => ns - before).getD 0
    some { p with prev := some ns, datagrams := p.datagrams ++ [⟨delay, payload⟩] }
  | none => (fits64 (p.skipped + 1)).map fun skipped => { p with skipped := skipped }

end Progress

structure RecordHeader where
  sec : Nat
  frac : Nat
  inclLen : Nat

def recordHeader (f : Format) (data : Bytes) (off : Nat) : Except PcapError RecordHeader := do
  let sec ← u32At f.le data off
  let frac ← u32At f.le data (off + 4)
  let inclLen ← u32At f.le data (off + 8)
  return ⟨sec, frac, inclLen⟩

/-- The record loop of `parse_pcap`; no result means that some arithmetic overflowed. A record takes at least 16 bytes,
    so as many rounds as there are bytes are enough. -/
def recordLoop (f : Format) (port : Option Nat) (data : Bytes) :
    Nat → Nat → Progress → Option (Except PcapError Capture)
  | 0, _, p => some (.ok p.capture)
  | rounds + 1, off, p =>
    (fits64 (off + 16)).bind fun start =>
      if data.length < start then some (.ok p.capture)
      else match recordHeader f data off with
        | .error e => some (.error e)
        | .ok header => (fits64 (start + header.inclLen)).bind fun stop =>
          -- a torn tail record ends the capture
          if data.length < stop then some (.ok p.capture)
          else (timestamp f header.sec header.frac).bind fun ns =>
            (p.record port ns ((data.drop start).take header.inclLen)).bind fun p =>
              recordLoop f port data rounds stop p

/-- The link type must be Ethernet. -/
def checkLinktype (data : Bytes) : Except PcapError Format → Except PcapError Format
  | .error e => .error e
  | .ok f => match u32At f.le data 20 with
    | .error e => .error e
    | .ok linktype => if linktype ≠ 1 then .error (.linkType linktype) else .ok f

/-- `parse_pcap` up to its loop. -/
def globalHeader (data : Bytes) : Except PcapError Format :=
  if data.length < 24 then .error (.shorterThanHeader data.length)
  else match data with
    | b0 :: b1 :: b2 :: b3 :: _ => checkLinktype data (formatOf b0 b1 b2 b3)
    | _ => .error (.shorterThanHeader data.length)

def parsePcap (data : Bytes) (port : Option Nat) : Option (Except PcapError Capture) :=
  match globalHeader data with
  | .error e => some (.error e)
  | .ok f => recordLoop f port data (data.length + 1) 24 .start

end ReplayModel
