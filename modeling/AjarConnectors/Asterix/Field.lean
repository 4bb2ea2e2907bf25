import Mathlib.Data.List.Basic

namespace AsterixModel

abbrev Bytes := List UInt8

/-- A data item by its number in the category: I048/140 is `⟨140⟩`. -/
structure Item where
  number : Nat
  deriving DecidableEq

namespace Item

def sp : Item := ⟨1000⟩

def re : Item := ⟨1001⟩

def spare : Item := ⟨1002⟩

end Item

/-- The item and bytes pairs of one record. -/
abbrev Items := List (Item × Bytes)

/-- How to measure the octet length of a UAP item or compound subfield. -/
inductive Field where
  | fixed (octets : Nat)
  | extended (unit : Nat)
  | repetitive (octets : Nat)
  | explicit
  | compound (subs : List Field)
  | spare
  | opaqueField

abbrev Uap := List (Item × Field)

inductive AsterixError where
  | badBlock (cat : Option UInt8) (declared available : Nat)
  | truncated
  | unsupportedItem (cat : UInt8) (frn : Nat)
  deriving DecidableEq

/-- The loop of `field_len` on an `Extended` field. A unit of one octet or more uses up at least that
    much of the data at each turn, so the fuel below is never the reason for `none`. -/
def extentsLen (unit : Nat) (data : Bytes) (off : Nat) : Nat → Nat → Option Nat
  | 0, _ => none
  | fuel + 1, n =>
    if off + (n + unit) = 0 then none
    else match data[off + (n + unit) - 1]? with
      | none => none
      | some last => if last &&& 0x01 = 0 then some (n + unit) else extentsLen unit data off fuel (n + unit)

/-- The seven presence bits of an octet, bit 8 first. -/
def presence (octet : UInt8) : List Bool :=
  [octet &&& 0x80 != 0, octet &&& 0x40 != 0, octet &&& 0x20 != 0, octet &&& 0x10 != 0, octet &&& 0x08 != 0,
    octet &&& 0x04 != 0, octet &&& 0x02 != 0]

/-- The loop of `primary_bits`, over the data from its offset on. -/
def chainedBits : Bytes → Option (List Bool)
  | [] => none
  | octet :: rest =>
    if octet &&& 0x01 = 0 then some (presence octet) else (chainedBits rest).map (presence octet ++ ·)

def primaryBits (data : Bytes) (off : Nat) : Option (List Bool) := chainedBits (data.drop off)

/-- `bits.len().div_ceil(7)`. -/
def octetsOf (bits : List Bool) : Nat := (bits.length + 6) / 7

mutual

/-- The octet length of a field at an offset, or `none` if it is truncated or cannot be measured. -/
def fieldLen : Field → Bytes → Nat → Option Nat
  | .fixed n, _, _ => some n
  | .spare, _, _ => some 0
  | .extended unit, data, off => extentsLen unit data off (data.length + 1) 0
  | .repetitive item, data, off => data[off]?.map fun rep => 1 + rep.toNat * item
  | .explicit, data, off => data[off]?.map UInt8.toNat
  | .compound subs, data, off =>
    match primaryBits data off with
    | none => none
    | some bits => subfieldsLen subs bits data off (octetsOf bits)
  | .opaqueField, _, _ => none

/-- The loop of `field_len` over the bits of a compound; a bit past the last subfield has none to
    measure. -/
def subfieldsLen : List Field → List Bool → Bytes → Nat → Nat → Option Nat
  | _, [], _, _, total => some total
  | [], bits, _, _, total => if bits.any id then none else some total
  | _ :: subs, false :: bits, data, off, total => subfieldsLen subs bits data off total
  | sub :: subs, true :: bits, data, off, total =>
    match fieldLen sub data (off + total) with
    | none => none
    | some n => subfieldsLen subs bits data off (total + n)

end

/-- The loop of `walk_compound`: it stops at the first subfield that cannot be measured or does not fit. -/
def walkSubfields (data : Bytes) : List Field → List Bool → Nat → Nat → List (Nat × Bytes)
  | _, [], _, _ => []
  | subs, false :: bits, i, off => walkSubfields data subs.tail bits (i + 1) off
  | [], true :: _, _, _ => []
  | sub :: subs, true :: bits, i, off =>
    match fieldLen sub data off with
    | none => []
    | some len =>
      if data.length < off + len then []
      else (i, (data.drop off).take len) :: walkSubfields data subs bits (i + 1) (off + len)

/-- The present subfields of a compound item with their positions. -/
def walkCompound (subs : List Field) (data : Bytes) : List (Nat × Bytes) :=
  match primaryBits data 0 with
  | none => []
  | some bits => walkSubfields data subs bits 0 (octetsOf bits)

/-- The category and declared length of the data block at the start of a frame. -/
def blockHeader (frame : Bytes) : Except AsterixError (UInt8 × Nat) :=
  match frame with
  | cat :: hi :: lo :: _ =>
    let len := hi.toNat * 256 + lo.toNat
    if len < 3 ∨ frame.length < len then .error (.badBlock (some cat) len frame.length) else .ok (cat, len)
  | _ => .error (.badBlock none 0 frame.length)

/-- `u8::saturating_add(1)`. -/
def saturatingSucc (frn : Nat) : Nat := min (frn + 1) 255

/-- The turns of the inner loop of `walk_record` over the bits of one octet: the present FRNs and the
    FRN after them. -/
def presentFrns : List Bool → Nat → List Nat × Nat
  | [], frn => ([], frn)
  | bit :: bits, frn =>
    let later := presentFrns bits (saturatingSucc frn)
    (if bit then frn :: later.1 else later.1, later.2)

/-- The FSPEC loop of `walk_record`, over the data from its offset on: the present FRNs and the number
    of octets read. -/
def readFspec : Bytes → Nat → Except AsterixError (List Nat × Nat)
  | [], _ => .error .truncated
  | octet :: rest, frn =>
    let here := presentFrns (presence octet) frn
    if octet &&& 0x01 = 0 then .ok (here.1, 1)
    else match readFspec rest here.2 with
      | .error e => .error e
      | .ok (present, octets) => .ok (here.1 ++ present, octets + 1)

/-- The item loop of `walk_record`. -/
def walkItems (cat : UInt8) (uap : Uap) (data : Bytes) : List Nat → Nat → Except AsterixError (Items × Nat)
  | [], off => .ok ([], off)
  | frn :: present, off =>
    match uap[frn - 1]? with
    | none => .error (.unsupportedItem cat frn)
    | some (item, field) =>
      match fieldLen field data off with
      | none => .error (match field with
        | .opaqueField | .compound _ => .unsupportedItem cat frn
        | _ => .truncated)
      | some len =>
        if data.length < off + len then .error .truncated
        else match walkItems cat uap data present (off + len) with
          | .error e => .error e
          | .ok (items, next) => .ok ((item, (data.drop off).take len) :: items, next)

/-- The items of the record at an offset, and the offset of the next record. -/
def walkRecord (cat : UInt8) (uap : Uap) (data : Bytes) (off : Nat) : Except AsterixError (Items × Nat) :=
  match readFspec (data.drop off) 1 with
  | .error e => .error e
  | .ok (present, octets) => walkItems cat uap data present (off + octets)

/-- `uap.iter().position(..)`. -/
def position (uap : Uap) (item : Item) : Option Nat := uap.findIdx? fun entry => entry.1 = item

/-- So many octets, each FRN's bit set in its place and FX on every octet but the last. -/
def namingOctets (octets : Nat) (frns : List Nat) : Bytes :=
  (frns.foldl (fun f n => f.modify ((n - 1) / 7) (· ||| (0x80 >>> UInt8.ofNat ((n - 1) % 7))))
    (List.replicate octets 0)).mapIdx fun i octet => if i < octets - 1 then octet ||| 0x01 else octet

/-- The FSPEC naming items of a UAP; `none` is the panic on an item that is not in it. -/
def fspec (uap : Uap) (items : List Item) : Option Bytes :=
  (items.mapM (position uap)).map fun places =>
    let frns := places.map (1 + ·)
    namingOctets (max ((frns.max?.getD 1 + 6) / 7) 1) frns

/-- `fspec` of the synthetic feed, from FRNs; `none` is its panic on an empty list. -/
def feedFspec (frns : List Nat) : Option Bytes :=
  frns.max?.map fun most => namingOctets ((most + 6) / 7) frns

/-- One data block: category, total length including the header, records. -/
def block (cat : UInt8) (record : Bytes) : Bytes :=
  let len := 3 + record.length
  cat :: UInt8.ofNat (len / 256) :: UInt8.ofNat len :: record

end AsterixModel
