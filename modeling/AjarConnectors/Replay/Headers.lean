import AjarConnectors.Replay.Pcap

namespace ReplayModel

/-- An 802.1ad (`outer`) or 802.1Q tag and its control information. -/
structure Tag where
  outer : Bool
  control : UInt8 × UInt8

def Tag.bytes (t : Tag) : Bytes := (if t.outer then [0x88, 0xa8] else [0x81, 0x00]) ++ [t.control.1, t.control.2]

def tagBytes (tags : List Tag) : Bytes := tags.flatMap Tag.bytes

/-- Ethernet, IPv4 and UDP headers, one behind the other; two bytes are a number in network order. -/
structure Headers where
  addresses : Bytes
  tags : List Tag
  first : UInt8
  tos : UInt8
  totalLength : UInt8 × UInt8
  ident : UInt8 × UInt8
  fragment : UInt8 × UInt8
  ttl : UInt8
  checksum : UInt8 × UInt8
  hosts : Bytes
  options : Bytes
  sourcePort : UInt8 × UInt8
  destPort : UInt8 × UInt8
  length : UInt8 × UInt8
  udpChecksum : UInt8 × UInt8
  addressesLength : addresses.length = 12
  hostsLength : hosts.length = 8
  headerLength : first.toNat % 16 * 4 = 20 + options.length

namespace Headers

variable (h : Headers)

def version : Nat := h.first.toNat / 16

/-- More fragments is clear and the offset is 0; the flags above are not to fragment and a reserved one. -/
def Unfragmented : Prop := h.fragment.1.toNat % 64 = 0 ∧ h.fragment.2 = 0

def port : Nat := u16Be h.destPort.1 h.destPort.2

def udpLength : Nat := u16Be h.length.1 h.length.2

def ipBytes : Bytes :=
  [h.first, h.tos, h.totalLength.1, h.totalLength.2, h.ident.1, h.ident.2, h.fragment.1, h.fragment.2, h.ttl, 17,
    h.checksum.1, h.checksum.2] ++ h.hosts ++ h.options

def udpBytes : Bytes :=
  [h.sourcePort.1, h.sourcePort.2, h.destPort.1, h.destPort.2, h.length.1, h.length.2, h.udpChecksum.1, h.udpChecksum.2]

def bytes : Bytes := h.addresses ++ (tagBytes h.tags ++ 0x08 :: 0x00 :: (h.ipBytes ++ h.udpBytes))

/-- The port filter lets the packet through. -/
def Matches (port : Option Nat) : Prop := ∀ want, port = some want → want = h.port

end Headers

/-- Headers of a datagram of four bytes, in a packet with these fragment bits. -/
def fourByteHeaders (fragment : UInt8 × UInt8) : Headers where
  addresses := [0, 0, 0, 0, 0, 1, 0, 0, 0, 0, 0, 2]
  tags := []
  first := 0x45
  tos := 0
  totalLength := (0, 32)
  ident := (0, 7)
  fragment := fragment
  ttl := 64
  checksum := (0, 0)
  hosts := [10, 0, 0, 1, 239, 2, 3, 1]
  options := []
  sourcePort := (39, 15)
  destPort := (33, 152)
  length := (0, 12)
  udpChecksum := (0, 0)
  addressesLength := rfl
  hostsLength := rfl
  headerLength := rfl

end ReplayModel

namespace ReplayProof

open ReplayModel

theorem u16Be_eq {b0 b1 c0 c1 : UInt8} (same : u16Be b0 b1 = u16Be c0 c1) : b0 = c0 ∧ b1 = c1 := by
  have low := b1.toNat_lt
  have low' := c1.toNat_lt
  unfold u16Be at same
  exact ⟨UInt8.toNat_inj.mp (by omega), UInt8.toNat_inj.mp (by omega)⟩

theorem tag_of_isTag {b0 b1 : UInt8} (tag : isTag (u16Be b0 b1) = true) (control : UInt8 × UInt8) :
    ∃ t : Tag, t.bytes = [b0, b1, control.1, control.2] := by
  unfold isTag at tag
  rw [Bool.or_eq_true, beq_iff_eq, beq_iff_eq] at tag
  rcases tag with inner | outer
  · obtain ⟨rfl, rfl⟩ := @u16Be_eq _ _ 0x81 0x00 inner
    exact ⟨⟨false, control⟩, rfl⟩
  · obtain ⟨rfl, rfl⟩ := @u16Be_eq _ _ 0x88 0xa8 outer
    exact ⟨⟨true, control⟩, rfl⟩

theorem isTag_tag (t : Tag) : ∃ b0 b1, t.bytes = [b0, b1, t.control.1, t.control.2] ∧ isTag (u16Be b0 b1) = true := by
  unfold Tag.bytes
  cases t.outer with
  | true => exact ⟨0x88, 0xa8, rfl, by decide⟩
  | false => exact ⟨0x81, 0x00, rfl, by decide⟩

/-- Tags are passed over, up to an ethertype that is none. -/
theorem skipTags_tags (tags : List Tag) {e0 e1 : UInt8} (plain : isTag (u16Be e0 e1) = false) (rest : Bytes) :
    ∃ b0 b1 more, tagBytes tags ++ e0 :: e1 :: rest = b0 :: b1 :: more ∧
      skipTags (u16Be b0 b1) more = some (u16Be e0 e1, rest) := by
  induction tags with
  | nil =>
    refine ⟨e0, e1, rest, rfl, ?_⟩
    unfold skipTags
    split
    · rw [plain, if_neg Bool.false_ne_true]
    · rw [plain, if_neg Bool.false_ne_true]
  | cons t tags ih =>
    obtain ⟨b0, b1, more, split, read⟩ := ih
    obtain ⟨t0, t1, shape, tag⟩ := isTag_tag t
    refine ⟨t0, t1, t.control.1 :: t.control.2 :: b0 :: b1 :: more, ?_, ?_⟩
    · rw [tagBytes, List.flatMap_cons, List.append_assoc, shape]
      change _ :: _ :: _ :: _ :: (tagBytes tags ++ e0 :: e1 :: rest) = _
      rw [split]
    · rw [skipTags, tag, if_pos rfl, read]

theorem tags_of_skipTags {b0 b1 : UInt8} {more rest : Bytes} {ethertype : Nat}
    (read : skipTags (u16Be b0 b1) more = some (ethertype, rest)) :
    ∃ tags e0 e1, u16Be e0 e1 = ethertype ∧ b0 :: b1 :: more = tagBytes tags ++ e0 :: e1 :: rest := by
  generalize start : u16Be b0 b1 = first at read
  fun_induction skipTags first more generalizing b0 b1 with
  | case1 first t0 t1 e0 e1 rest' tag ih =>
    subst start
    obtain ⟨tags, f0, f1, value, split⟩ := ih rfl read
    obtain ⟨t, shape⟩ := tag_of_isTag tag (t0, t1)
    refine ⟨t :: tags, f0, f1, value, ?_⟩
    rw [tagBytes, List.flatMap_cons, shape, List.append_assoc]
    change _ = b0 :: b1 :: t0 :: t1 :: (tagBytes tags ++ f0 :: f1 :: rest)
    rw [← split]
  | case2 first t0 t1 e0 e1 rest' plain =>
    cases read
    exact ⟨[], b0, b1, start, rfl⟩
  | case3 => cases read
  | case4 first rest' plain =>
    cases read
    exact ⟨[], b0, b1, start, rfl⟩

/-- The IPv4 packet stands behind the addresses, any tags and its ethertype. -/
theorem ipv4Packet_iff (frame ip : Bytes) : ipv4Packet frame = some ip ↔
    ∃ addresses tags, addresses.length = 12 ∧ frame = addresses ++ (tagBytes tags ++ 0x08 :: 0x00 :: ip) := by
  constructor
  · intro read
    have split := (List.take_append_drop 12 frame).symm
    unfold ipv4Packet at read
    split at read
    · rename_i e0 e1 rest shape
      split at read
      · cases read
      · rename_i ethertype ip' skipped
        split at read
        · cases read
        · rename_i ipv4
          cases read
          rw [not_not] at ipv4
          obtain ⟨tags, f0, f1, value, tagged⟩ := tags_of_skipTags skipped
          obtain ⟨rfl, rfl⟩ := @u16Be_eq _ _ 0x08 0x00 (value.trans ipv4)
          rw [shape, tagged] at split
          refine ⟨frame.take 12, tags, ?_, split⟩
          have length := congrArg List.length shape
          rw [List.length_drop, List.length_cons, List.length_cons] at length
          rw [List.length_take]
          omega
    · cases read
  · rintro ⟨addresses, tags, length, rfl⟩
    obtain ⟨b0, b1, more, split, read⟩ := @skipTags_tags tags 0x08 0x00 (by decide) ip
    unfold ipv4Packet
    rw [List.drop_left' length, split]
    have ipv4 : u16Be 0x08 0x00 = 0x0800 := by decide
    dsimp only
    rw [read]
    exact if_neg (not_not.mpr ipv4)

/-- Of any other ethertype there is no IPv4 packet. -/
theorem ipv4Packet_other {addresses : Bytes} (length : addresses.length = 12) (tags : List Tag) {e0 e1 : UInt8}
    (plain : isTag (u16Be e0 e1) = false) (other : u16Be e0 e1 ≠ 0x0800) (rest : Bytes) :
    ipv4Packet (addresses ++ (tagBytes tags ++ e0 :: e1 :: rest)) = none := by
  obtain ⟨b0, b1, more, split, read⟩ := skipTags_tags tags plain rest
  unfold ipv4Packet
  rw [List.drop_left' length, split]
  dsimp only
  rw [read]
  exact if_pos other

/-- The UDP datagram stands behind an IPv4 header of at least 20 bytes. -/
theorem udpDatagram_iff (ip udp : Bytes) : udpDatagram ip = some udp ↔
    ∃ first header, first.toNat % 16 * 4 = (first :: header).length ∧ 20 ≤ (first :: header).length ∧
      (first :: header)[9]? = some 17 ∧ ip = first :: header ++ udp := by
  constructor
  · intro read
    cases ip with
    | nil => cases read
    | cons first rest =>
      unfold udpDatagram at read
      dsimp only at read
      split at read
      · cases read
      · rename_i sound
        simp only [not_or, not_lt, not_not] at sound
        obtain ⟨long, protocol, inside⟩ := sound
        cases read
        obtain ⟨n, size⟩ : ∃ n, first.toNat % 16 * 4 = n + 1 := ⟨first.toNat % 16 * 4 - 1, by omega⟩
        have length : (first :: rest.take n).length = n + 1 := by
          rw [List.length_cons] at inside ⊢
          rw [List.length_take]
          omega
        refine ⟨first, rest.take n, by rw [length, size], by omega, ?_, ?_⟩
        · rw [← protocol, ← List.take_succ_cons, List.getElem?_take_of_lt (by omega)]
        · rw [size, ← List.take_succ_cons, List.take_append_drop]
  · rintro ⟨first, header, size, long, protocol, rfl⟩
    rw [List.cons_append, udpDatagram, ← List.cons_append, size, if_neg, List.drop_left]
    simp only [not_or, not_lt, not_not]
    refine ⟨long, ?_, ?_⟩
    · rw [List.getElem?_append_left (by omega), protocol]
    · rw [List.length_append]
      omega

theorem filtered_iff (port : Option Nat) (n : Nat) :
    ¬ (port.any fun want => decide (want ≠ n)) = true ↔ ∀ want, port = some want → want = n := by
  cases port with
  | none => simp
  | some want => simp

theorem take_body {front : Bytes} (length : front.length = 8) (body : Bytes) (n : Nat) :
    ((front ++ body).take (min n (front ++ body).length)).drop 8 = body.take (n - 8) := by
  rw [List.drop_take, ← length, List.drop_left, length, List.length_append, length]
  by_cases short : n ≤ 8 + body.length
  · rw [Nat.min_eq_left short]
  · rw [List.take_of_length_le (by omega), List.take_of_length_le (by omega)]

theorem udpBody_iff (port : Option Nat) (udp payload : Bytes) : udpBody port udp = some payload ↔
    ∃ s0 s1 p0 p1 l0 l1 c0 c1 body, udp = [s0, s1, p0, p1, l0, l1, c0, c1] ++ body ∧
      (∀ want, port = some want → want = u16Be p0 p1) ∧ 8 ≤ u16Be l0 l1 ∧ payload = body.take (u16Be l0 l1 - 8) := by
  constructor
  · intro read
    unfold udpBody at read
    split at read
    · rename_i s0 s1 p0 p1 l0 l1 rest
      split at read
      · cases read
      · rename_i passed
        split at read
        · cases read
        · split at read
          · cases read
          · rename_i long whole
            have more : 2 ≤ rest.length := by
              simp only [List.length_cons] at whole
              omega
            match rest, more with
            | c0 :: c1 :: body, _ =>
              cases read
              exact ⟨s0, s1, p0, p1, l0, l1, c0, c1, body, rfl, (filtered_iff port _).mp passed, by omega,
                @take_body [s0, s1, p0, p1, l0, l1, c0, c1] rfl body _⟩
    · cases read
  · rintro ⟨s0, s1, p0, p1, l0, l1, c0, c1, body, rfl, passed, long, rfl⟩
    have whole : ¬ min (u16Be l0 l1) ([s0, s1, p0, p1, l0, l1, c0, c1] ++ body).length < 8 := by
      rw [List.length_append]
      change ¬ min (u16Be l0 l1) (8 + body.length) < 8
      omega
    unfold udpBody
    change (if _ then none else if u16Be l0 l1 < 8 then none
      else if min (u16Be l0 l1) ([s0, s1, p0, p1, l0, l1, c0, c1] ++ body).length < 8 then none
      else some (List.drop 8 (List.take _ ([s0, s1, p0, p1, l0, l1, c0, c1] ++ body)))) = _
    rw [if_neg ((filtered_iff port _).mpr passed), if_neg (by omega), if_neg whole, take_body rfl]

/-- The fields of an IPv4 header. -/
theorem ipv4_fields {header : Bytes} (long : 20 ≤ header.length) (protocol : header[9]? = some 17) :
    ∃ first tos l0 l1 i0 i1 f0 f1 ttl c0 c1 hosts options, hosts.length = 8 ∧
      header = [first, tos, l0, l1, i0, i1, f0, f1, ttl, 17, c0, c1] ++ hosts ++ options := by
  have front : (header.take 12).length = 12 := by
    rw [List.length_take]
    omega
  have hosts : ((header.drop 12).take 8).length = 8 := by
    rw [List.length_take, List.length_drop]
    omega
  have split := (List.take_append_drop 12 header).symm
  rw [← List.take_append_drop 8 (header.drop 12), ← List.append_assoc] at split
  match bytes : header.take 12, front with
  | [first, tos, l0, l1, i0, i1, f0, f1, ttl, proto, c0, c1], _ =>
    have same : (header.take 12)[9]? = some 17 := by rw [List.getElem?_take_of_lt (by omega), protocol]
    rw [bytes] at same split
    cases same
    exact ⟨first, tos, l0, l1, i0, i1, f0, f1, ttl, c0, c1, _, _, hosts, split⟩

/-- What `udp_payload` gives: the bytes behind the headers, as many as the UDP length says or as there are. -/
theorem udpPayload_iff (frame : Bytes) (port : Option Nat) (payload : Bytes) : udpPayload frame port = some payload ↔
    ∃ (h : Headers) (body : Bytes), frame = h.bytes ++ body ∧ h.Matches port ∧ 8 ≤ h.udpLength ∧
      payload = body.take (h.udpLength - 8) := by
  constructor
  · intro read
    obtain ⟨ip, packet, rest⟩ := Option.bind_eq_some_iff.mp read
    obtain ⟨udp, datagram, delivered⟩ := Option.bind_eq_some_iff.mp rest
    obtain ⟨addresses, tags, length, rfl⟩ := (ipv4Packet_iff _ _).mp packet
    obtain ⟨first, header, size, long, protocol, rfl⟩ := (udpDatagram_iff _ _).mp datagram
    obtain ⟨s0, s1, p0, p1, n0, n1, k0, k1, body, rfl, passed, enough, rfl⟩ := (udpBody_iff _ _ _).mp delivered
    obtain ⟨first', tos, l0, l1, i0, i1, f0, f1, ttl, c0, c1, hosts, options, eight, fields⟩ := ipv4_fields long protocol
    cases (List.cons.inj fields).1
    rw [fields] at size ⊢
    refine ⟨⟨addresses, tags, first, tos, (l0, l1), (i0, i1), (f0, f1), ttl, (c0, c1), hosts, options, (s0, s1), (p0, p1),
      (n0, n1), (k0, k1), length, eight, ?_⟩, body, ?_, passed, enough, rfl⟩
    · rw [size, List.length_append, List.length_append, eight]
      rfl
    · simp only [Headers.bytes, Headers.ipBytes, Headers.udpBytes, List.append_assoc, List.cons_append]
  · rintro ⟨h, body, rfl, passed, enough, rfl⟩
    have shape : h.bytes ++ body = h.addresses ++ (tagBytes h.tags ++ 0x08 :: 0x00 :: (h.ipBytes ++ (h.udpBytes ++ body))) := by
      simp only [Headers.bytes, List.append_assoc, List.cons_append]
    have packet := (ipv4Packet_iff (h.bytes ++ body) _).mpr ⟨h.addresses, h.tags, h.addressesLength, shape⟩
    have length : h.ipBytes.length = 20 + h.options.length := by
      rw [Headers.ipBytes, List.length_append, List.length_append, h.hostsLength]
      rfl
    have datagram : udpDatagram (h.ipBytes ++ (h.udpBytes ++ body)) = some (h.udpBytes ++ body) := by
      apply (udpDatagram_iff _ _).mpr
      refine ⟨h.first, h.ipBytes.tail, ?_, ?_, rfl, rfl⟩
      · exact h.headerLength.trans length.symm
      · change 20 ≤ h.ipBytes.length
        omega
    unfold udpPayload
    rw [packet, Option.bind_some, datagram, Option.bind_some]
    exact (udpBody_iff _ _ _).mpr ⟨_, _, _, _, _, _, _, _, body, rfl, passed, enough, rfl⟩

/-- A frame has one set of headers. -/
theorem headers_unique {h g : Headers} {body more : Bytes} (same : h.bytes ++ body = g.bytes ++ more) :
    h.version = g.version ∧ h.fragment = g.fragment ∧ h.port = g.port ∧ h.udpLength = g.udpLength ∧ body = more := by
  have packet : ∀ (h : Headers) (body : Bytes), ipv4Packet (h.bytes ++ body) = some (h.ipBytes ++ (h.udpBytes ++ body)) := by
    intro h body
    apply (ipv4Packet_iff _ _).mpr
    refine ⟨h.addresses, h.tags, h.addressesLength, ?_⟩
    simp only [Headers.bytes, List.append_assoc, List.cons_append]
  have length : ∀ h : Headers, h.ipBytes.length = h.first.toNat % 16 * 4 := by
    intro h
    rw [h.headerLength, Headers.ipBytes, List.length_append, List.length_append, h.hostsLength]
    rfl
  have ip := packet h body
  rw [same, packet g more, Option.some.injEq] at ip
  have first : g.first = h.first := (List.cons.inj ip).1
  obtain ⟨fields, rest⟩ := List.append_inj ip (by rw [length, length, first])
  obtain ⟨udp, bodies⟩ := List.append_inj rest rfl
  have fragment : g.fragment = h.fragment := by
    simp only [Headers.ipBytes, List.cons_append, List.cons.injEq] at fields
    exact Prod.ext fields.2.2.2.2.2.2.1 fields.2.2.2.2.2.2.2.1
  simp only [Headers.udpBytes, List.cons.injEq] at udp
  refine ⟨?_, fragment.symm, ?_, ?_, bodies.symm⟩
  · rw [Headers.version, Headers.version, first]
  · rw [Headers.port, Headers.port, udp.2.2.1, udp.2.2.2.1]
  · rw [Headers.udpLength, Headers.udpLength, udp.2.2.2.2.1, udp.2.2.2.2.2.1]

end ReplayProof
