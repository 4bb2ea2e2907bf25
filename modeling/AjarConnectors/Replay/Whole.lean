import AjarConnectors.Replay.Headers
import AjarConnectors.Replay.Records

namespace ReplayModel

/-- The record holds a whole UDP datagram with this payload, from an IPv4 packet that is neither a fragment nor cut. -/
structure WholeDatagram (port : Option Nat) (r : Record) (payload : Bytes) : Prop where
  uncut : r.origLen ≤ r.frame.length
  packet : ∃ (h : Headers) (padding : Bytes), r.frame = h.bytes ++ (payload ++ padding) ∧ h.Matches port ∧ h.version = 4 ∧
    h.Unfragmented ∧ h.udpLength = 8 + payload.length

/-- The whole datagrams of some records are delivered, in order, and the other records are skipped. -/
inductive Replays (port : Option Nat) : List Record → List Bytes → Nat → Prop where
  | nil : Replays port [] [] 0
  | delivered {r : Record} {records : List Record} {payload : Bytes} {payloads : List Bytes} {skipped : Nat}
    (whole : WholeDatagram port r payload) (rest : Replays port records payloads skipped) :
    Replays port (r :: records) (payload :: payloads) skipped
  | skipped {r : Record} {records : List Record} {payloads : List Bytes} {skipped : Nat}
    (partly : ∀ payload, ¬ WholeDatagram port r payload) (rest : Replays port records payloads skipped) :
    Replays port (r :: records) payloads (skipped + 1)

def DeliversWhole (data : Bytes) (port : Option Nat) : Prop :=
  ∀ capture, parsePcap data port = some (.ok capture) →
    Replays port (recordsOf data) (capture.datagrams.map Datagram.payload) capture.skipped

/-- If the record has headers of a UDP datagram for the port, then they are of an IPv4 packet that is no fragment, and
    neither the packet nor the datagram is cut. -/
def OnlyWhole (port : Option Nat) (r : Record) : Prop :=
  ∀ (h : Headers) (body : Bytes), r.frame = h.bytes ++ body → h.Matches port → 8 ≤ h.udpLength →
    h.version = 4 ∧ h.Unfragmented ∧ r.origLen ≤ r.frame.length ∧ h.udpLength ≤ 8 + body.length

end ReplayModel

namespace ReplayProof

open ReplayModel

section Records

variable {port : Option Nat} {r : Record}

/-- A whole datagram is delivered. -/
theorem udpPayload_of_whole {payload : Bytes} (whole : WholeDatagram port r payload) :
    udpPayload r.frame port = some payload := by
  obtain ⟨-, h, padding, frame, passed, -, -, length⟩ := whole
  rw [udpPayload_iff]
  refine ⟨h, payload ++ padding, frame, passed, by omega, ?_⟩
  rw [length, Nat.add_sub_cancel_left, List.take_left]

theorem onlyWhole_of_whole {payload : Bytes} (whole : WholeDatagram port r payload) : OnlyWhole port r := by
  obtain ⟨uncut, h, padding, frame, -, version, unfragmented, length⟩ := whole
  intro g body split _ _
  rw [frame] at split
  obtain ⟨sameVersion, sameFragment, -, sameLength, rfl⟩ := headers_unique split
  refine ⟨sameVersion ▸ version, ?_, uncut, ?_⟩
  · rw [Headers.Unfragmented, ← sameFragment]
    exact unfragmented
  · rw [← sameLength, length, List.length_append]
    omega

theorem onlyWhole_of_none (none : udpPayload r.frame port = none) : OnlyWhole port r := by
  intro h body split passed enough
  have delivered := (udpPayload_iff r.frame port _).mpr ⟨h, body, split, passed, enough, rfl⟩
  rw [none] at delivered
  cases delivered

theorem whole_of_onlyWhole {payload : Bytes} (only : OnlyWhole port r) (delivered : udpPayload r.frame port = some payload) :
    WholeDatagram port r payload := by
  obtain ⟨h, body, split, passed, enough, rfl⟩ := (udpPayload_iff _ _ _).mp delivered
  obtain ⟨version, unfragmented, uncut, fits⟩ := only h body split passed enough
  refine ⟨uncut, h, body.drop (h.udpLength - 8), ?_, passed, version, unfragmented, ?_⟩
  · rw [List.take_append_drop, split]
  · rw [List.length_take]
    omega

/-- No more is skipped than should be, and nothing less only if no record is delivered in part. -/
theorem skipped_le {records : List Record} {payloads : List Bytes} {skipped : Nat}
    (replays : Replays port records payloads skipped) :
    (records.filter fun r => (udpPayload r.frame port).isNone).length ≤ skipped ∧
    ((records.filter fun r => (udpPayload r.frame port).isNone).length = skipped → ∀ r ∈ records, OnlyWhole port r) := by
  induction replays with
  | nil => exact ⟨Nat.le_refl _, fun _ r member => by cases member⟩
  | delivered whole _ ih =>
    rw [List.filter_cons, udpPayload_of_whole whole, Option.isNone_some, if_neg Bool.false_ne_true, List.forall_mem_cons]
    exact ⟨ih.1, fun same => ⟨onlyWhole_of_whole whole, ih.2 same⟩⟩
  | @skipped r _ _ _ partly _ ih =>
    rw [List.forall_mem_cons]
    cases result : udpPayload r.frame port with
    | none =>
      rw [List.filter_cons, result, Option.isNone_none, if_pos rfl, List.length_cons]
      exact ⟨Nat.succ_le_succ ih.1, fun same => ⟨onlyWhole_of_none result, ih.2 (Nat.succ.inj same)⟩⟩
    | some payload =>
      rw [List.filter_cons, result, Option.isNone_some, if_neg Bool.false_ne_true]
      exact ⟨Nat.le_succ_of_le ih.1, fun same => by have fewer := ih.1; omega⟩

theorem replays_of_onlyWhole {records : List Record} (only : ∀ r ∈ records, OnlyWhole port r) :
    Replays port records (records.filterMap fun r => udpPayload r.frame port)
      (records.filter fun r => (udpPayload r.frame port).isNone).length := by
  induction records with
  | nil => exact .nil
  | cons r records ih =>
    rw [List.forall_mem_cons] at only
    cases result : udpPayload r.frame port with
    | none =>
      rw [List.filter_cons, List.filterMap_cons, result, Option.isNone_none, if_pos rfl]
      apply Replays.skipped _ (ih only.2)
      intro payload whole
      rw [udpPayload_of_whole whole] at result
      cases result
    | some payload =>
      rw [List.filter_cons, List.filterMap_cons, result, Option.isNone_some, if_neg Bool.false_ne_true]
      exact .delivered (whole_of_onlyWhole only.1 result) (ih only.2)

end Records

/-- Only whole payloads are delivered exactly if each record that looks like a UDP datagram for the port is a whole
    one. -/
theorem delivers_whole_iff (data : Bytes) (port : Option Nat) (addressable : data.length < 2^63) :
    DeliversWhole data port ↔ ∀ r ∈ recordsOf data, OnlyWhole port r := by
  unfold DeliversWhole
  cases read : globalHeader data with
  | error e =>
    have none : recordsOf data = [] := by rw [recordsOf, read]
    have refused : parsePcap data port = some (.error e) := by rw [parsePcap, read]
    rw [none, refused]
    exact iff_of_true (fun capture parsed => by cases parsed) (List.forall_mem_nil _)
  | ok f =>
    have parsed := parsePcap_eq port addressable read
    have payloads := fold_payloads f port (recordsOf data) .start
    have skipped := fold_skipped f port (recordsOf data) .start
    rw [Progress.start, List.map_nil, List.nil_append] at payloads
    rw [Progress.start, Nat.zero_add] at skipped
    constructor
    · intro delivers
      have replays := delivers _ parsed
      exact (skipped_le replays).2 skipped.symm
    · intro only capture parsed'
      rw [parsed] at parsed'
      cases parsed'
      have replays := replays_of_onlyWhole only
      rw [← payloads, ← skipped] at replays
      exact replays

/-- A little-endian capture in microseconds of one packet of 46 bytes. -/
def capturedFrame (frame : Bytes) : Bytes :=
  [0xd4, 0xc3, 0xb2, 0xa1, 2, 0, 4, 0, 0, 0, 0, 0, 0, 0, 0, 0, 0xff, 0xff, 0, 0, 1, 0, 0, 0] ++
    ([0, 0, 0, 0, 0, 0, 0, 0, 46, 0, 0, 0, 46, 0, 0, 0] ++ frame)

theorem whole_datagram_is_delivered : DeliversWhole (capturedFrame ((fourByteHeaders (0x40, 0)).bytes ++ [1, 2, 3, 4])) none := by
  refine (delivers_whole_iff _ none (by decide)).mpr ?_
  have records : recordsOf (capturedFrame ((fourByteHeaders (0x40, 0)).bytes ++ [1, 2, 3, 4])) =
      [⟨0, 0, 46, (fourByteHeaders (0x40, 0)).bytes ++ [1, 2, 3, 4]⟩] := by decide
  rw [records, List.forall_mem_singleton]
  have anyPort : (fourByteHeaders (0x40, 0)).Matches none := by
    intro want given
    cases given
  have whole : WholeDatagram none ⟨0, 0, 46, (fourByteHeaders (0x40, 0)).bytes ++ [1, 2, 3, 4]⟩ [1, 2, 3, 4] :=
    ⟨by decide, fourByteHeaders (0x40, 0), [], rfl, anyPort, rfl, ⟨rfl, rfl⟩, rfl⟩
  exact onlyWhole_of_whole whole

/-- The first fragment of a packet is replayed as if it were a datagram. -/
theorem fragment_is_delivered : ¬ ∀ (data : Bytes) (port : Option Nat), data.length < 2^63 → DeliversWhole data port := by
  intro all
  have records : recordsOf (capturedFrame ((fourByteHeaders (0x20, 0)).bytes ++ [1, 2, 3, 4])) =
      [⟨0, 0, 46, (fourByteHeaders (0x20, 0)).bytes ++ [1, 2, 3, 4]⟩] := by decide
  have parsed : parsePcap (capturedFrame ((fourByteHeaders (0x20, 0)).bytes ++ [1, 2, 3, 4])) none =
      some (.ok ⟨[⟨0, [1, 2, 3, 4]⟩], 0⟩) := by decide
  have replays := all _ none (by decide) _ parsed
  rw [records] at replays
  cases replays with
  | delivered whole rest =>
    obtain ⟨-, h, padding, frame, -, -, unfragmented, -⟩ := whole
    have same := (headers_unique frame).2.1
    rw [Headers.Unfragmented, ← same] at unfragmented
    exact absurd unfragmented.1 (by decide)

end ReplayProof
