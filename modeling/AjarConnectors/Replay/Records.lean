import AjarConnectors.Replay.Pcap

namespace ReplayModel

/-- A record of a capture; `origLen` is the packet's length on the wire. -/
structure Record where
  sec : Nat
  frac : Nat
  origLen : Nat
  frame : Bytes
  deriving DecidableEq

def nextRecord (le : Bool) (bytes : Bytes) : Option (Record × Bytes) :=
  match u32? le bytes, u32? le (bytes.drop 4), u32? le (bytes.drop 8), u32? le (bytes.drop 12) with
  | some sec, some frac, some inclLen, some origLen =>
    if (bytes.drop 16).length < inclLen then none
    else some (⟨sec, frac, origLen, (bytes.drop 16).take inclLen⟩, (bytes.drop 16).drop inclLen)
  | _, _, _, _ => none

/-- The whole records in some bytes. -/
def wholeRecords (le : Bool) : Nat → Bytes → List Record
  | 0, _ => []
  | rounds + 1, bytes => match nextRecord le bytes with
    | none => []
    | some (r, rest) => r :: wholeRecords le rounds rest

/-- The whole records of a capture that `parse_pcap` reads. -/
def recordsOf (data : Bytes) : List Record :=
  match globalHeader data with
  | .error _ => []
  | .ok f => wholeRecords f.le (data.length + 1) (data.drop 24)

def Record.time (f : Format) (r : Record) : Nat := r.sec * 1000000000 + if f.nanos then r.frac else r.frac * 1000

/-- What one record adds. -/
def Progress.add (f : Format) (port : Option Nat) (p : Progress) (r : Record) : Progress :=
  match udpPayload r.frame port with
  | some payload =>
    { p with
      prev := some (r.time f)
      datagrams := p.datagrams ++ [⟨(p.prev.map fun before => r.time f - before).getD 0, payload⟩] }
  | none => { p with skipped := p.skipped + 1 }

/-- How long after the one before it each of some packets came; the first did not wait. -/
def delays : Option Nat → List Nat → List Nat
  | _, [] => []
  | prev, time :: times => (prev.map fun before => time - before).getD 0 :: delays (some time) times

end ReplayModel

namespace ReplayProof

open ReplayModel

theorem u32_lt (le : Bool) (b0 b1 b2 b3 : UInt8) : u32 le b0 b1 b2 b3 < 2^32 := by
  have first := b0.toNat_lt
  have second := b1.toNat_lt
  have third := b2.toNat_lt
  have fourth := b3.toNat_lt
  unfold u32
  split <;> omega

theorem u32?_lt {le : Bool} {bytes : Bytes} {n : Nat} (read : u32? le bytes = some n) : n < 2^32 := by
  unfold u32? at read
  split at read
  · cases read
    exact u32_lt ..
  · cases read

theorem u32?_isSome_iff (le : Bool) (bytes : Bytes) : (∃ n, u32? le bytes = some n) ↔ 4 ≤ bytes.length := by
  unfold u32?
  split
  · simp
  · rename_i short
    constructor
    · rintro ⟨n, read⟩
      cases read
    · intro long
      match bytes, long with
      | b0 :: b1 :: b2 :: b3 :: rest, _ => exact absurd rfl (short b0 b1 b2 b3 rest)

theorem fits64_eq {n : Nat} (small : n < 2^64) : fits64 n = some n := if_pos small

/-- Seconds and fractions of 32 bits stay within 64. -/
theorem timestamp_eq (f : Format) {sec frac : Nat} (secFits : sec < 2^32) (fracFits : frac < 2^32) :
    timestamp f sec frac = some (sec * 1000000000 + if f.nanos then frac else frac * 1000) := by
  unfold timestamp
  rw [fits64_eq (by omega), Option.bind_some]
  cases f.nanos with
  | true =>
    rw [if_pos rfl, if_pos rfl, Option.bind_some, fits64_eq (by omega)]
  | false =>
    rw [if_neg Bool.false_ne_true, if_neg Bool.false_ne_true, fits64_eq (by omega), Option.bind_some, fits64_eq (by omega)]

theorem record_eq {p : Progress} (small : p.skipped + 1 < 2^64) (f : Format) (port : Option Nat) (r : Record) :
    p.record port (r.time f) r.frame = some (p.add f port r) := by
  unfold Progress.record Progress.add
  cases udpPayload r.frame port with
  | some payload => rfl
  | none => rw [fits64_eq small, Option.map_some]

theorem add_skipped_le (f : Format) (port : Option Nat) (p : Progress) (r : Record) :
    (p.add f port r).skipped ≤ p.skipped + 1 := by
  unfold Progress.add
  split
  · exact Nat.le_succ _
  · exact Nat.le_refl _

theorem nextRecord_short {le : Bool} {bytes : Bytes} (short : bytes.length < 16) : nextRecord le bytes = none := by
  unfold nextRecord
  split
  · rename_i origLen found
    have long := (u32?_isSome_iff le (bytes.drop 12)).mp ⟨_, found⟩
    rw [List.length_drop] at long
    omega
  · rfl

/-- The four numbers of a record's header. -/
theorem header_numbers (le : Bool) {bytes : Bytes} (long : 16 ≤ bytes.length) :
    ∃ sec frac inclLen origLen, u32? le bytes = some sec ∧ u32? le (bytes.drop 4) = some frac ∧
      u32? le (bytes.drop 8) = some inclLen ∧ u32? le (bytes.drop 12) = some origLen := by
  have read : ∀ i ≤ 12, ∃ n, u32? le (bytes.drop i) = some n := by
    intro i small
    rw [u32?_isSome_iff, List.length_drop]
    omega
  obtain ⟨sec, first⟩ := read 0 (by omega)
  obtain ⟨frac, second⟩ := read 4 (by omega)
  obtain ⟨inclLen, third⟩ := read 8 (by omega)
  obtain ⟨origLen, fourth⟩ := read 12 (by omega)
  exact ⟨sec, frac, inclLen, origLen, first, second, third, fourth⟩

/-- The loop meets the whole records of the capture, one after the other, and no arithmetic overflows. A slice has fewer
    than 2^63 bytes. -/
theorem recordLoop_eq (f : Format) (port : Option Nat) {data : Bytes} (addressable : data.length < 2^63)
    {rounds off : Nat} {p : Progress} (inside : off ≤ data.length) (counted : p.skipped ≤ off)
    (enough : data.length < off + rounds) :
    recordLoop f port data rounds off p =
      some (.ok ((wholeRecords f.le rounds (data.drop off)).foldl (Progress.add f port) p).capture) := by
  induction rounds generalizing off p with
  | zero => omega
  | succ rounds ih =>
    rw [recordLoop, wholeRecords, fits64_eq (by omega), Option.bind_some]
    split
    · rename_i short
      rw [nextRecord_short (by rw [List.length_drop]; omega)]
      rfl
    · rename_i long
      obtain ⟨sec, frac, inclLen, origLen, first, second, third, fourth⟩ :=
        @header_numbers f.le (data.drop off) (by rw [List.length_drop]; omega)
      have header : recordHeader f data off = .ok ⟨sec, frac, inclLen⟩ := by
        rw [List.drop_drop] at second third
        unfold recordHeader u32At
        rw [first, second, third]
        rfl
      have small := u32?_lt third
      rw [header]
      dsimp only
      rw [fits64_eq (by omega), Option.bind_some]
      unfold nextRecord
      rw [first, second, third, fourth]
      dsimp only
      rw [List.drop_drop, List.length_drop]
      split
      · rename_i torn
        rw [if_pos (by omega)]
        rfl
      · rename_i whole
        rw [if_neg (by omega), timestamp_eq f (u32?_lt first) (u32?_lt second), Option.bind_some]
        have next := record_eq (p := p) (by omega) f port ⟨sec, frac, origLen, (data.drop (off + 16)).take inclLen⟩
        rw [Record.time] at next
        rw [next, Option.bind_some, ih (by omega) _ (by omega), List.drop_drop]
        · rfl
        · have more := add_skipped_le f port p ⟨sec, frac, origLen, (data.drop (off + 16)).take inclLen⟩
          omega

theorem globalHeader_long {data : Bytes} {f : Format} (read : globalHeader data = .ok f) : 24 ≤ data.length := by
  unfold globalHeader at read
  split at read
  · cases read
  · omega

theorem globalHeader_eq {data rest : Bytes} {b0 b1 b2 b3 : UInt8} {f : Format} (shape : data = b0 :: b1 :: b2 :: b3 :: rest)
    (long : 24 ≤ data.length) (format : formatOf b0 b1 b2 b3 = .ok f) (linktype : u32At f.le data 20 = .ok 1) :
    globalHeader data = .ok f := by
  unfold globalHeader
  rw [if_neg (Nat.not_lt.mpr long)]
  subst shape
  dsimp only
  rw [format, checkLinktype, linktype]
  exact if_neg (not_not.mpr rfl)

theorem parsePcap_eq (port : Option Nat) {data : Bytes} (addressable : data.length < 2^63) {f : Format}
    (read : globalHeader data = .ok f) :
    parsePcap data port = some (.ok ((recordsOf data).foldl (Progress.add f port) .start).capture) := by
  have long := globalHeader_long read
  unfold parsePcap recordsOf
  rw [read]
  exact recordLoop_eq f port addressable long (Nat.zero_le _) (by omega)

section Fold

variable (f : Format) (port : Option Nat)

theorem fold_payloads (records : List Record) (p : Progress) :
    (records.foldl (Progress.add f port) p).datagrams.map Datagram.payload =
      p.datagrams.map Datagram.payload ++ records.filterMap fun r => udpPayload r.frame port := by
  induction records generalizing p with
  | nil => simp
  | cons r records ih =>
    rw [List.foldl_cons, ih, List.filterMap_cons]
    unfold Progress.add
    cases udpPayload r.frame port with
    | none => rfl
    | some payload => simp

theorem fold_delays (records : List Record) (p : Progress) :
    (records.foldl (Progress.add f port) p).datagrams.map Datagram.delay =
      p.datagrams.map Datagram.delay ++
        delays p.prev ((records.filter fun r => (udpPayload r.frame port).isSome).map (Record.time f)) := by
  induction records generalizing p with
  | nil => simp [delays]
  | cons r records ih =>
    rw [List.foldl_cons, ih, List.filter_cons]
    unfold Progress.add
    cases udpPayload r.frame port with
    | none => rfl
    | some payload => simp [delays]

theorem fold_skipped (records : List Record) (p : Progress) :
    (records.foldl (Progress.add f port) p).skipped =
      p.skipped + (records.filter fun r => (udpPayload r.frame port).isNone).length := by
  induction records generalizing p with
  | nil => rfl
  | cons r records ih =>
    rw [List.foldl_cons, ih, List.filter_cons]
    unfold Progress.add
    cases udpPayload r.frame port with
    | none =>
      dsimp only [Option.isNone_none]
      rw [if_pos rfl, List.length_cons]
      omega
    | some payload => rfl

end Fold

end ReplayProof
