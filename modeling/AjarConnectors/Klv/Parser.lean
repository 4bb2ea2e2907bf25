import AjarConnectors.Event.Floats
import AjarConnectors.Http.Server
import AjarConnectors.Utf8.Lossy

namespace KlvModel

open EventModel HttpModel

/-- The Universal Label that opens a MISB ST 0601 UAS Datalink Local Set. -/
def uasLsKey : Bytes :=
  [0x06, 0x0e, 0x2b, 0x34, 0x02, 0x0b, 0x01, 0x01, 0x0e, 0x01, 0x03, 0x01, 0x01, 0x00, 0x00, 0x00]

inductive KlvError where
  | notUasLs
  | truncated
  /-- Indefinite form, or wider than 4 bytes. -/
  | badLength
  | badChecksum
  deriving DecidableEq

/-- Floats, and the RFC 3339 text of a time in microseconds since 1970, if it has one. -/
structure Platform extends Floats where
  rfc3339FromMicros : Nat → Option String

/-- The ST 0601 tags this connector maps, and the raw set. -/
structure UasMetadata where
  timestamp : Option String := none
  tailNumber : Option String := none
  designation : Option String := none
  missionId : Option String := none
  headingDeg : Option F64 := none
  pitchDeg : Option F64 := none
  rollDeg : Option F64 := none
  lat : F64 := .zero
  lon : F64 := .zero
  altM : Option F64 := none
  lsVersion : Option UInt8 := none
  raw : Bytes := []
  deriving DecidableEq

/-- Where `usize` ends. -/
def usizeEnd : Nat := 2^64

/-- The ST 0601 checksum: even-indexed bytes count in the high byte, odd-indexed ones in the low byte. -/
def bcc16 (bytes : Bytes) : UInt16 :=
  bytes.zipIdx.foldl (fun sum entry => sum + (entry.1.toUInt16 <<< UInt16.ofNat (8 * ((entry.2 + 1) % 2)))) 0

/-- The turns of `read_ber_len` over the bytes of a long length. -/
def lenBytes (buf : Bytes) : Nat → Nat → Nat → Except KlvError (Nat × Nat)
  | 0, len, pos => .ok (len, pos)
  | n + 1, len, pos =>
    match buf[pos]? with
    | none => .error .truncated
    | some b => lenBytes buf n (len <<< 8 ||| b.toNat) (pos + 1)

/-- A length, and where it ends. -/
def readBerLen (buf : Bytes) (pos : Nat) : Except KlvError (Nat × Nat) :=
  match buf[pos]? with
  | none => .error .truncated
  | some b0 =>
    if b0 &&& 0x80 = 0 then .ok (b0.toNat, pos + 1)
    else
      let n := (b0 &&& 0x7f).toNat
      if n = 0 ∨ 4 < n then .error .badLength else lenBytes buf n 0 (pos + 1)

/-- The turns of `read_ber_oid_tag` over the bytes from `pos` on. -/
def tagBytes : UInt32 → Nat → Bytes → Except KlvError (UInt32 × Nat)
  | _, _, [] => .error .truncated
  | tag, pos, b :: later =>
    let tag := tag <<< 7 ||| (b &&& 0x7f).toUInt32
    if b &&& 0x80 = 0 then .ok (tag, pos + 1) else tagBytes tag (pos + 1) later

/-- A tag, and where it ends. -/
def readBerOidTag (buf : Bytes) (pos : Nat) : Except KlvError (UInt32 × Nat) := tagBytes 0 pos (buf.drop pos)

def beNat (bytes : Bytes) : Nat := bytes.foldl (fun value b => value * 256 + b.toNat) 0

/-- `u16`, `u32` and `u64::from_be_bytes`, of a value of the right length. -/
def beUnsigned (width : Nat) (v : Bytes) : Option Nat := if v.length = width then some (beNat v) else none

/-- `i16` and `i32::from_be_bytes`. -/
def beSigned (width : Nat) (v : Bytes) : Option Int :=
  if v.length = width then some ((beNat v : Int).bmod (256^width)) else none

def beU16 : Bytes → Option Nat := beUnsigned 2
def beI16 : Bytes → Option Int := beSigned 2
def beI32 : Bytes → Option Int := beSigned 4
def beU64 : Bytes → Option Nat := beUnsigned 8

section

variable (platform : Platform)

/-- ST 0601 signed angle: the full range maps to plus or minus `halfDeg`; the least number is the error indicator. -/
def i32Angle (v : Int) (halfDeg : F64) : Option F64 :=
  if v = -2147483648 then none
  else some (platform.div (platform.mul (platform.ofInt v) halfDeg) ⟨0x41dfffffffc00000⟩)

/-- ST 0601 signed attitude; the least number is the out-of-range indicator. -/
def i16Scaled (v : Int) (halfDeg : F64) : Option F64 :=
  if v = -32768 then none
  else some (platform.div (platform.mul (platform.ofInt v) halfDeg) ⟨0x40dfffc000000000⟩)

def ascii (v : Bytes) : Option String :=
  let s := trimText (Utf8.decodeLossy v)
  if s.isEmpty then none else some (String.ofList s)

def heading (v : Nat) : F64 :=
  platform.div (platform.mul (platform.ofInt v) ⟨0x4076800000000000⟩) ⟨0x40efffe000000000⟩

def altitude (v : Nat) : F64 :=
  platform.add ⟨0xc08c200000000000⟩
    (platform.div (platform.mul (platform.ofInt v) ⟨0x40d36f0000000000⟩) ⟨0x40efffe000000000⟩)

/-- What the item loop of `parse_set` has read so far. -/
structure Fields where
  m : UasMetadata := {}
  lat : Option F64 := none
  lon : Option F64 := none
  deriving DecidableEq

/-- The item loop's match on the tag. -/
def Fields.take (f : Fields) (tag : UInt32) (val : Bytes) : Fields :=
  match tag.toNat with
  | 2 => { f with m.timestamp := (beU64 val).bind platform.rfc3339FromMicros }
  | 3 => { f with m.missionId := ascii val }
  | 4 => { f with m.tailNumber := ascii val }
  | 5 => { f with m.headingDeg := (beU16 val).map (heading platform) }
  | 6 => { f with m.pitchDeg := (beI16 val).bind fun v => i16Scaled platform v ⟨0x4034000000000000⟩ }
  | 7 => { f with m.rollDeg := (beI16 val).bind fun v => i16Scaled platform v ⟨0x4049000000000000⟩ }
  | 10 => { f with m.designation := ascii val }
  | 13 => { f with lat := (beI32 val).bind fun v => i32Angle platform v ⟨0x4056800000000000⟩ }
  | 14 => { f with lon := (beI32 val).bind fun v => i32Angle platform v ⟨0x4066800000000000⟩ }
  | 15 => { f with m.altM := (beU16 val).map (altitude platform) }
  | 65 => { f with m.lsVersion := val.head? }
  | _ => f

/-- One turn of the item loop: a tag, its value, and where the item ends. -/
def readItem (frame : Bytes) (total p : Nat) : Except KlvError (UInt32 × Bytes × Nat) :=
  match readBerOidTag frame p with
  | .error e => .error e
  | .ok (tag, p) =>
    match readBerLen frame p with
    | .error e => .error e
    | .ok (len, p) =>
      if usizeEnd ≤ p + len then .error .badLength
      else if total < p + len then .error .truncated
      else .ok (tag, (frame.drop p).take len, p + len)

/-- The item loop. Every turn takes a byte at least, so `total` turns are enough. -/
def readItems (frame : Bytes) (total : Nat) : Nat → Nat → Fields → Except KlvError Fields
  | 0, p, f => if p < total then .error .truncated else .ok f
  | turns + 1, p, f =>
    if p < total then
      match readItem frame total p with
      | .error e => .error e
      | .ok (tag, val, next) => readItems frame total turns next (f.take platform tag val)
    else .ok f

/-- The set's fields; none without a position. -/
def Fields.finish (f : Fields) (pkt : Bytes) : Option UasMetadata :=
  match f.lat, f.lon with
  | some lat, some lon => some { f.m with lat := lat, lon := lon, raw := pkt }
  | _, _ => none

/-- No metadata for a valid set without sensor latitude and longitude. -/
def parseSet (frame : Bytes) : Except KlvError (Option UasMetadata) :=
  if frame.length < 17 ∨ frame.take 16 ≠ uasLsKey then .error .notUasLs
  else
    match readBerLen frame 16 with
    | .error e => .error e
    | .ok (setLen, pos) =>
      if usizeEnd ≤ pos + setLen then .error .badLength
      else
        let total := pos + setLen
        if frame.length < total ∨ total < pos + 2 then .error .truncated
        else
          let pkt := frame.take total
          let given := UInt16.ofNat ((pkt.getD (total - 2) 0).toNat * 256 + (pkt.getD (total - 1) 0).toNat)
          if bcc16 (pkt.take (total - 2)) ≠ given then .error .badChecksum
          else
            match readItems platform frame total total pos {} with
            | .error e => .error e
            | .ok f => .ok (f.finish pkt)

end

end KlvModel
