import AjarConnectors.Replay.Headers
import AjarConnectors.Replay.Records

namespace ReplayModel

def u32Bytes (le : Bool) (n : Nat) : Bytes :=
  let b := fun i => UInt8.ofNat (n / 2^(8 * i))
  if le then [b 0, b 1, b 2, b 3] else [b 3, b 2, b 1, b 0]

/-- An IPv4/UDP frame built from a payload: whole, no fragment, and perhaps with padding behind it. -/
structure UdpFrame where
  headers : Headers
  payload : Bytes
  padding : Bytes
  version : headers.version = 4
  unfragmented : headers.Unfragmented
  length : headers.udpLength = 8 + payload.length

inductive Frame where
  | udp (frame : UdpFrame)
  | otherEthertype (addresses : Bytes) (tags : List Tag) (ethertype : UInt8 × UInt8) (rest : Bytes)
    (addressesLength : addresses.length = 12) (plain : isTag (u16Be ethertype.1 ethertype.2) = false)
    (other : u16Be ethertype.1 ethertype.2 ≠ 0x0800)
  | otherProtocol (addresses : Bytes) (tags : List Tag) (ip : Bytes) (addressesLength : addresses.length = 12)
    (protocol : UInt8) (stated : ip[9]? = some protocol) (other : protocol ≠ 17)

def Frame.bytes : Frame → Bytes
  | .udp frame => frame.headers.bytes ++ (frame.payload ++ frame.padding)
  | .otherEthertype addresses tags ethertype rest _ _ _ =>
    addresses ++ (tagBytes tags ++ ethertype.1 :: ethertype.2 :: rest)
  | .otherProtocol addresses tags ip _ _ _ _ => addresses ++ (tagBytes tags ++ 0x08 :: 0x00 :: ip)

/-- A packet and when it was captured. -/
structure Packet where
  sec : Nat
  frac : Nat
  frame : Frame
  secFits : sec < 2^32
  fracFits : frac < 2^32
  frameFits : frame.bytes.length < 2^32

namespace Packet

def bytes (le : Bool) (p : Packet) : Bytes :=
  u32Bytes le p.sec ++ (u32Bytes le p.frac ++ (u32Bytes le p.frame.bytes.length ++ (u32Bytes le p.frame.bytes.length ++
    p.frame.bytes)))

/-- The payload of a UDP packet that the filter lets through. -/
def payload? (port : Option Nat) (p : Packet) : Option Bytes :=
  match p.frame with
  | .udp frame => if port.all (· == frame.headers.port) then some frame.payload else none
  | _ => none

def time (f : Format) (p : Packet) : Nat := p.sec * 1000000000 + if f.nanos then p.frac else p.frac * 1000

def record (p : Packet) : Record := ⟨p.sec, p.frac, p.frame.bytes.length, p.frame.bytes⟩

end Packet

def magic (nanos : Bool) : Nat := if nanos then 0xa1b23c4d else 0xa1b2c3d4

/-- A capture as it is written: the header, whose version, zone, accuracy and snap length `parse_pcap` does not read,
    the packets, and perhaps the beginning of one more. -/
structure Writing where
  format : Format
  unread : Bytes
  packets : List Packet
  torn : Bytes
  unreadLength : unread.length = 16
  tornFrom : ∃ extra : Packet, torn <+: extra.bytes format.le ∧ torn ≠ extra.bytes format.le

def Writing.bytes (w : Writing) : Bytes :=
  u32Bytes w.format.le (magic w.format.nanos) ++ (w.unread ++ (u32Bytes w.format.le 1 ++
    (w.packets.flatMap (Packet.bytes w.format.le) ++ w.torn)))

end ReplayModel

namespace ReplayProof

open ReplayModel

theorem u32Bytes_length (le : Bool) (n : Nat) : (u32Bytes le n).length = 4 := by
  cases le <;> rfl

theorem u32?_u32Bytes (le : Bool) {n : Nat} (small : n < 2^32) (rest : Bytes) :
    u32? le (u32Bytes le n ++ rest) = some n := by
  cases le
  · simp [u32Bytes, u32?, u32]
    omega
  · simp [u32Bytes, u32?, u32]
    omega

/-- Four bytes fewer are left to drop behind a number. -/
theorem drop_u32Bytes (le : Bool) (i n : Nat) (rest : Bytes) : (u32Bytes le n ++ rest).drop (i + 4) = rest.drop i := by
  rw [Nat.add_comm, ← List.drop_drop, List.drop_left' (u32Bytes_length le n)]

section Written

variable (le : Bool) (p : Packet)

theorem header_length : (p.bytes le).length = 16 + p.frame.bytes.length := by
  simp only [Packet.bytes, List.length_append, u32Bytes_length]
  omega

/-- A record header is read whatever stands where its frame should. -/
theorem header_read (body : Bytes) :
    nextRecord le (u32Bytes le p.sec ++ (u32Bytes le p.frac ++ (u32Bytes le p.frame.bytes.length ++
      (u32Bytes le p.frame.bytes.length ++ body)))) =
      if body.length < p.frame.bytes.length then none
      else some (⟨p.sec, p.frac, p.frame.bytes.length, body.take p.frame.bytes.length⟩, body.drop p.frame.bytes.length) := by
  unfold nextRecord
  simp only [drop_u32Bytes, List.drop_zero, u32?_u32Bytes le p.secFits, u32?_u32Bytes le p.fracFits,
    u32?_u32Bytes le p.frameFits]

theorem nextRecord_whole (rest : Bytes) : nextRecord le (p.bytes le ++ rest) = some (p.record, rest) := by
  have read := header_read le p (p.frame.bytes ++ rest)
  rw [if_neg (by rw [List.length_append]; omega), List.take_left, List.drop_left] at read
  simp only [Packet.bytes, List.append_assoc]
  exact read

/-- The beginning of a record is none. -/
theorem nextRecord_torn {torn : Bytes} (begun : torn <+: p.bytes le) (cut : torn ≠ p.bytes le) : nextRecord le torn = none := by
  obtain ⟨missing, whole⟩ := begun
  have filled : 0 < missing.length := by
    rw [List.length_pos_iff]
    intro empty
    rw [empty, List.append_nil] at whole
    exact cut whole
  have length := congrArg List.length whole
  rw [List.length_append, header_length] at length
  by_cases short : torn.length < 16
  · exact nextRecord_short short
  · have split : torn = (p.bytes le).take 16 ++ torn.drop 16 := by
      rw [← whole, List.take_append_of_le_length (by omega), List.take_append_drop]
    have header : (p.bytes le).take 16 = u32Bytes le p.sec ++ (u32Bytes le p.frac ++ (u32Bytes le p.frame.bytes.length ++
        u32Bytes le p.frame.bytes.length)) := by
      have fields : p.bytes le = (u32Bytes le p.sec ++ (u32Bytes le p.frac ++ (u32Bytes le p.frame.bytes.length ++
          u32Bytes le p.frame.bytes.length))) ++ p.frame.bytes := by
        simp only [Packet.bytes, List.append_assoc]
      rw [fields]
      apply List.take_left'
      simp only [List.length_append, u32Bytes_length]
    have read := header_read le p (torn.drop 16)
    rw [if_pos (by rw [List.length_drop]; omega)] at read
    rw [split, header]
    simp only [List.append_assoc]
    exact read

theorem wholeRecords_written (packets : List Packet) {torn : Bytes} {extra : Packet} (begun : torn <+: extra.bytes le)
    (cut : torn ≠ extra.bytes le) {rounds : Nat} (enough : packets.length < rounds) :
    wholeRecords le rounds (packets.flatMap (Packet.bytes le) ++ torn) = packets.map Packet.record := by
  induction packets generalizing rounds with
  | nil =>
    cases rounds with
    | zero => cases enough
    | succ rounds =>
      rw [List.flatMap_nil, List.nil_append, wholeRecords, nextRecord_torn le extra begun cut]
      rfl
  | cons p packets ih =>
    cases rounds with
    | zero => cases enough
    | succ rounds =>
      rw [List.flatMap_cons, List.append_assoc, wholeRecords, nextRecord_whole]
      dsimp only
      rw [ih (by rw [List.length_cons] at enough; omega), List.map_cons]

theorem udpPayload_written (port : Option Nat) : udpPayload p.frame.bytes port = p.payload? port := by
  unfold Packet.payload?
  cases p.frame with
  | udp frame =>
    dsimp only
    split
    · rename_i passed
      rw [Frame.bytes, udpPayload_iff]
      have matched : frame.headers.Matches port := by
        intro want given
        rw [given] at passed
        simpa using passed
      refine ⟨frame.headers, frame.payload ++ frame.padding, rfl, matched, by have := frame.length; omega, ?_⟩
      rw [frame.length, Nat.add_sub_cancel_left, List.take_left]
    · rename_i stopped
      rw [Frame.bytes]
      cases delivered : udpPayload (frame.headers.bytes ++ (frame.payload ++ frame.padding)) port with
      | none => rfl
      | some payload =>
        obtain ⟨h, body, split, passed, -, -⟩ := (udpPayload_iff _ _ _).mp delivered
        have same := (headers_unique split).2.2.1
        refine absurd ?_ stopped
        cases port with
        | none => rfl
        | some want =>
          rw [Option.all_some, beq_iff_eq, same]
          exact passed want rfl
  | otherEthertype addresses tags ethertype rest length plain other =>
    unfold udpPayload
    rw [Frame.bytes, ipv4Packet_other length tags plain other]
    rfl
  | otherProtocol addresses tags ip length protocol stated other =>
    have packet := (ipv4Packet_iff _ ip).mpr ⟨addresses, tags, length, rfl⟩
    unfold udpPayload
    rw [Frame.bytes, packet, Option.bind_some]
    cases datagram : udpDatagram ip with
    | none => rfl
    | some udp =>
      obtain ⟨first, header, -, long, seventeen, rfl⟩ := (udpDatagram_iff _ _).mp datagram
      rw [List.getElem?_append_left (by omega), seventeen] at stated
      exact absurd (Option.some.inj stated).symm other

end Written

theorem written_length (w : Writing) :
    w.bytes.length = 24 + (w.packets.flatMap (Packet.bytes w.format.le) ++ w.torn).length := by
  rw [Writing.bytes, List.length_append, List.length_append, List.length_append, u32Bytes_length, u32Bytes_length,
    w.unreadLength]
  omega

theorem formatOf_magic (f : Format) : ∃ b0 b1 b2 b3, u32Bytes f.le (magic f.nanos) = [b0, b1, b2, b3] ∧
    formatOf b0 b1 b2 b3 = .ok f := by
  rcases f with ⟨_ | _, _ | _⟩ <;> exact ⟨_, _, _, _, rfl, by decide⟩

theorem globalHeader_written (w : Writing) : globalHeader w.bytes = .ok w.format := by
  have length := written_length w
  obtain ⟨b0, b1, b2, b3, first, format⟩ := formatOf_magic w.format
  have linktype : u32At w.format.le w.bytes 20 = .ok 1 := by
    have before : (u32Bytes w.format.le (magic w.format.nanos) ++ w.unread).length = 20 := by
      rw [List.length_append, u32Bytes_length, w.unreadLength]
    unfold u32At
    rw [Writing.bytes, ← List.append_assoc, List.drop_left' before, u32?_u32Bytes _ (by decide)]
  have shape : ∃ rest, w.bytes = b0 :: b1 :: b2 :: b3 :: rest := by
    rw [Writing.bytes, first]
    exact ⟨_, rfl⟩
  obtain ⟨rest, shape⟩ := shape
  exact globalHeader_eq shape (by omega) format linktype

theorem recordsOf_written (w : Writing) : recordsOf w.bytes = w.packets.map Packet.record := by
  obtain ⟨extra, begun, cut⟩ := w.tornFrom
  have length := written_length w
  have behind : w.bytes.drop 24 = w.packets.flatMap (Packet.bytes w.format.le) ++ w.torn := by
    have before : (u32Bytes w.format.le (magic w.format.nanos) ++ (w.unread ++ u32Bytes w.format.le 1)).length = 24 := by
      rw [List.length_append, List.length_append, u32Bytes_length, u32Bytes_length, w.unreadLength]
    have split : w.bytes = (u32Bytes w.format.le (magic w.format.nanos) ++ (w.unread ++ u32Bytes w.format.le 1)) ++
        (w.packets.flatMap (Packet.bytes w.format.le) ++ w.torn) := by
      rw [Writing.bytes, List.append_assoc, List.append_assoc]
    rw [split, List.drop_left' before]
  have many : w.packets.length ≤ (w.packets.flatMap (Packet.bytes w.format.le)).length := by
    induction w.packets with
    | nil => exact Nat.zero_le _
    | cons p packets ih =>
      rw [List.flatMap_cons, List.length_append, header_length, List.length_cons]
      omega
  unfold recordsOf
  rw [globalHeader_written]
  dsimp only
  rw [behind, wholeRecords_written _ _ begun cut]
  rw [length, List.length_append]
  omega

/-- Each record is delivered or skipped. -/
theorem delivered_add_skipped (records : List Record) (port : Option Nat) :
    (records.filterMap fun r => udpPayload r.frame port).length +
      (records.filter fun r => (udpPayload r.frame port).isNone).length = records.length := by
  induction records with
  | nil => rfl
  | cons r records ih =>
    rw [List.filterMap_cons, List.filter_cons, List.length_cons]
    cases udpPayload r.frame port with
    | none =>
      rw [Option.isNone_none, if_pos rfl, List.length_cons]
      dsimp only
      omega
    | some payload =>
      rw [Option.isNone_some, if_neg Bool.false_ne_true]
      dsimp only
      rw [List.length_cons]
      omega

/-- Reading a written capture gives back the payloads that pass the filter, each with the time since the one before it,
    and counts the other packets; nothing overflows. -/
theorem parsePcap_inverts_writing (w : Writing) (port : Option Nat) (addressable : w.bytes.length < 2^63) :
    ∃ capture, parsePcap w.bytes port = some (.ok capture) ∧
      capture.datagrams.map Datagram.payload = w.packets.filterMap (Packet.payload? port) ∧
      capture.datagrams.map Datagram.delay =
        delays none ((w.packets.filter fun p => (p.payload? port).isSome).map (Packet.time w.format)) ∧
      capture.datagrams.length + capture.skipped = w.packets.length := by
  have payloads := fold_payloads w.format port (recordsOf w.bytes) .start
  have waits := fold_delays w.format port (recordsOf w.bytes) .start
  have skipped := fold_skipped w.format port (recordsOf w.bytes) .start
  have counted := delivered_add_skipped (recordsOf w.bytes) port
  refine ⟨_, parsePcap_eq port addressable (globalHeader_written w), ?_, ?_, ?_⟩
  · refine payloads.trans ?_
    rw [recordsOf_written, List.filterMap_map]
    exact List.filterMap_congr fun p _ => udpPayload_written p port
  · refine waits.trans ?_
    rw [recordsOf_written, List.filter_map, List.map_map]
    have kept : ((fun r : Record => (udpPayload r.frame port).isSome) ∘ Packet.record) =
        fun p => (p.payload? port).isSome := by
      funext p
      exact congrArg Option.isSome (udpPayload_written p port)
    rw [kept]
    rfl
  · have datagrams := congrArg List.length payloads
    rw [List.length_map, Progress.start, List.map_nil, List.nil_append] at datagrams
    rw [Progress.start, Nat.zero_add] at skipped
    have many := congrArg List.length (recordsOf_written w)
    rw [List.length_map] at many
    exact (congrArg₂ (· + ·) datagrams skipped).trans (counted.trans many)

theorem four_bytes_unfragmented : (fourByteHeaders (0x40, 0)).Unfragmented := ⟨by decide, by decide⟩

theorem four_bytes_length : (fourByteHeaders (0x40, 0)).udpLength = 8 + [1, 2, 3, 4].length := by decide

def fourByteFrame : Frame := .udp ⟨fourByteHeaders (0x40, 0), [1, 2, 3, 4], [0, 0], rfl, four_bytes_unfragmented, four_bytes_length⟩

theorem arp_plain : isTag (u16Be 0x08 0x06) = false := by decide

theorem arp_other : u16Be 0x08 0x06 ≠ 0x0800 := by decide

def arpAddresses : Bytes := [0, 0, 0, 0, 0, 1, 0, 0, 0, 0, 0, 2]

theorem arpAddresses_length : arpAddresses.length = 12 := rfl

def arpFrame (tags : List Tag) : Frame := .otherEthertype arpAddresses tags (0x08, 0x06) [0, 1] arpAddresses_length arp_plain arp_other

theorem small_time : 7 < 2^32 := by decide

theorem fourByteFrame_fits : fourByteFrame.bytes.length < 2^32 := by decide

theorem arpFrame_fits : (arpFrame [⟨true, (0, 1)⟩]).bytes.length < 2^32 := by decide

def fourBytePacket : Packet := ⟨7, 7, fourByteFrame, small_time, small_time, fourByteFrame_fits⟩

def arpPacket : Packet := ⟨7, 7, arpFrame [⟨true, (0, 1)⟩], small_time, small_time, arpFrame_fits⟩

theorem arpPacket_begins : [0, 0, 0] <+: arpPacket.bytes false ∧ [0, 0, 0] ≠ arpPacket.bytes false := by
  decide

/-- A datagram, a tagged ARP frame, and the first bytes of another record. -/
def twoPackets : Writing where
  format := ⟨false, true⟩
  unread := [0, 2, 0, 4, 0, 0, 0, 0, 0, 0, 0, 0, 0, 0, 0xff, 0xff]
  packets := [fourBytePacket, arpPacket]
  torn := [0, 0, 0]
  unreadLength := rfl
  tornFrom := ⟨arpPacket, arpPacket_begins⟩

theorem twoPackets_addressable : twoPackets.bytes.length < 2^63 := by
  rw [written_length]
  decide

theorem two_packets_read_back :
    ∃ capture, parsePcap twoPackets.bytes (some 8600) = some (.ok capture) ∧
      capture.datagrams.map Datagram.payload = [[1, 2, 3, 4]] ∧ capture.datagrams.map Datagram.delay = [0] ∧
      capture.datagrams.length + capture.skipped = 2 :=
  parsePcap_inverts_writing twoPackets (some 8600) twoPackets_addressable

end ReplayProof
