import AjarConnectors.Asterix.Parser
import AjarConnectors.Asterix.Records

namespace AsterixModel

open EventModel

/-- The UAP of a category the parser reads. -/
def uapOf (cat : UInt8) : Option Uap :=
  match cat with
  | 10 => some Cat010.uap
  | 21 => some Cat021.uap
  | 34 => some Cat034.uap
  | 48 => some Cat048.uap
  | 62 => some Cat062.uap
  | _ => none

/-- The body of a data block: records of a category the parser reads, or anything in another. -/
inductive Body (cat : UInt8) where
  | records (uap : Uap) (known : uapOf cat = some uap) (all : List (Record uap))
  | other (unknown : uapOf cat = none) (bytes : Bytes)

def Body.encode {cat : UInt8} : Body cat → Bytes
  | .records _ _ all => all.flatMap Record.encode
  | .other _ bytes => bytes

/-- A data block whose length fits the two octets that declare it. -/
structure Block where
  cat : UInt8
  body : Body cat
  fits : 3 + body.encode.length < 65536

def Block.encode (b : Block) : Bytes := block b.cat b.body.encode

/-- What the parser has seen of a datagram. -/
structure Seen where
  parser : AsterixParser
  targets : List AsterixTarget := []
  reports : List ServiceReport := []

/-- A block visited record by record: each track or service report is told from the record's items and
    carries the record's bytes; a block of another category is counted. -/
def Seen.visit (floats : Floats) (decoders : Decoders) (seen : Seen) (b : Block) : Seen :=
  match b.body with
  | .other _ _ => { seen with parser := { seen.parser with ignoredBlocks := seen.parser.ignoredBlocks + 1 } }
  | .records _ _ all =>
    match decoders.find seen.parser.sensor b.cat with
    | some (_, decode) => { seen with
        targets := seen.targets ++ all.foldl (fun found r => takeTarget b.cat decode found r.entries r.encode) [] }
    | none =>
      let found := all.foldl (fun state r => takeReport floats state r.entries r.encode) (seen.parser, [])
      { seen with parser := found.1, reports := seen.reports ++ found.2 }

end AsterixModel

namespace AsterixProof

open AsterixModel EventModel

theorem encode_ne_nil {uap : Uap} (record : Record uap) : record.encode ≠ [] := by
  obtain ⟨octets, some_octet, _, written⟩ := fspec_named uap _ (items_listed record)
  intro empty
  rw [Record.encode, Record.fspec, written, Option.getD_some] at empty
  have size := (namingOctets_names octets _ some_octet (frns_pos
    ((record.entries.map Prod.fst).filterMap (position uap)))).2.1
  rw [(List.append_eq_nil_iff.mp empty).1] at size
  exact absurd size (Nat.ne_of_lt some_octet)

/-- The record loop visits the records one by one and uses the block up. -/
theorem walkRecords_encode {σ : Type} (cat : UInt8) {uap : Uap} (few : uap.length ≤ 255)
    (visit : σ → Items → Bytes → σ) (records : List (Record uap)) (before : Bytes) (fuel : Nat) (state : σ)
    (enough : (records.flatMap Record.encode).length ≤ fuel) :
    walkRecords cat uap (before ++ records.flatMap Record.encode) visit fuel before.length state =
      (records.foldl (fun s r => visit s r.entries r.encode) state, .ok ()) := by
  induction records generalizing before fuel state with
  | nil => cases fuel <;> simp [walkRecords]
  | cons record records ih =>
    have some_octet := List.length_pos_iff.mpr (encode_ne_nil record)
    rw [List.flatMap_cons, List.length_append] at enough
    obtain ⟨fuel, rfl⟩ : ∃ k, fuel = k + 1 := ⟨fuel - 1, by omega⟩
    have walked := walkRecord_encode cat few record before (records.flatMap Record.encode)
    have later := ih (before ++ record.encode) fuel (visit state record.entries record.encode) (by omega)
    rw [List.append_assoc] at walked
    rw [List.append_assoc, List.length_append] at later
    rw [List.flatMap_cons, walkRecords, if_neg (by simp only [List.length_append]; omega), walked]
    dsimp only
    rw [show before.length + record.encode.length = (before ++ record.encode).length from (List.length_append ..).symm,
      ← List.append_assoc, List.take_left, List.drop_left, List.length_append, List.append_assoc, later,
      List.foldl_cons]

theorem blockHeader_block (cat : UInt8) (body rest : Bytes) (fits : 3 + body.length < 65536) :
    blockHeader (block cat body ++ rest) = .ok (cat, (block cat body).length) := by
  have size : (UInt8.ofNat ((3 + body.length) / 256)).toNat * 256 + (UInt8.ofNat (3 + body.length)).toNat =
      3 + body.length := by
    simp only [UInt8.toNat_ofNat']
    omega
  have whole : (block cat body).length = 3 + body.length := by
    simp only [block, List.length_cons]
    omega
  rw [whole]
  simp only [block, List.cons_append, blockHeader, size]
  rw [if_neg (by simp only [List.length_cons, List.length_append]; omega)]

theorem block_length (cat : UInt8) (body : Bytes) : (block cat body).length = 3 + body.length := by
  simp only [block, List.length_cons]
  omega

theorem walkRecords_block {σ : Type} (cat : UInt8) {uap : Uap} (few : uap.length ≤ 255)
    (visit : σ → Items → Bytes → σ) (records : List (Record uap)) (state : σ) :
    walkRecords cat uap (block cat (records.flatMap Record.encode)) visit
        (block cat (records.flatMap Record.encode)).length 3 state =
      (records.foldl (fun s r => visit s r.entries r.encode) state, .ok ()) := by
  have size := block_length cat (records.flatMap Record.encode)
  exact walkRecords_encode cat few visit records
    [cat, UInt8.ofNat ((3 + (records.flatMap Record.encode).length) / 256),
      UInt8.ofNat (3 + (records.flatMap Record.encode).length)]
    _ state (by omega)

theorem uapOf_few {cat : UInt8} {uap : Uap} (known : uapOf cat = some uap) : uap.length ≤ 255 := by
  unfold uapOf at known
  split at known <;> cases known <;> decide

/-- A track category is one with a decoder; CAT034 is the only other one with a UAP. -/
theorem uapOf_cases (decoders : Decoders) (sensor : Option Sensor) {cat : UInt8} {uap : Uap}
    (known : uapOf cat = some uap) :
    (cat = 34 ∧ uap = Cat034.uap ∧ decoders.find sensor cat = none) ∨
      ((cat = 10 ∨ cat = 21 ∨ cat = 48 ∨ cat = 62) ∧ ∃ decode, decoders.find sensor cat = some (uap, decode)) := by
  unfold uapOf at known
  split at known <;> cases known
  · exact Or.inr ⟨by decide, _, rfl⟩
  · exact Or.inr ⟨by decide, _, rfl⟩
  · exact Or.inl ⟨rfl, rfl, rfl⟩
  · exact Or.inr ⟨by decide, _, rfl⟩
  · exact Or.inr ⟨by decide, _, rfl⟩

theorem uapOf_none {cat : UInt8} (unknown : uapOf cat = none) :
    ¬ (cat = 10 ∨ cat = 21 ∨ cat = 48 ∨ cat = 62) ∧ cat ≠ 34 := by
  constructor
  · rintro (rfl | rfl | rfl | rfl) <;> cases unknown
  · rintro rfl
    cases unknown

section

variable (floats : Floats) (decoders : Decoders)

/-- One turn of the block loop takes one block off the datagram and visits it. -/
theorem parseBlocks_block (b : Block) (rest : Bytes) (fuel : Nat) (seen : Seen) :
    AsterixParser.parseBlocks floats decoders (fuel + 1) (b.encode ++ rest) seen.parser seen.targets seen.reports =
      let next := seen.visit floats decoders b
      AsterixParser.parseBlocks floats decoders fuel rest next.parser next.targets next.reports := by
  obtain ⟨cat, body, fits⟩ := b
  have header := blockHeader_block cat body.encode rest fits
  have alone := blockHeader_block cat body.encode [] fits
  rw [List.append_nil] at alone
  have some_octet : Block.encode ⟨cat, body, fits⟩ ++ rest ≠ [] := List.cons_ne_nil _ _
  rw [AsterixParser.parseBlocks, if_neg some_octet, Block.encode, header]
  dsimp only
  rw [List.take_left, List.drop_left]
  cases body with
  | other unknown bytes =>
    rcases uapOf_none unknown with ⟨noTrack, noService⟩
    rw [if_neg noTrack, if_neg noService]
    rfl
  | records uap known all =>
    rcases uapOf_cases decoders seen.parser.sensor known with ⟨rfl, rfl, none⟩ | ⟨track, decode, found⟩
    · have walked := walkRecords_block 34 (uapOf_few known) (takeReport floats) all (seen.parser, [])
      rw [if_neg (by decide), if_pos rfl, AsterixParser.parseServiceBlock, alone]
      dsimp only [Body.encode] at walked ⊢
      rw [if_neg (by decide), List.take_length, walked]
      simp only [Seen.visit, none]
    · have walked := walkRecords_block cat (uapOf_few known) (takeTarget cat decode) all []
      rw [if_pos track, AsterixParser.parseBlock, alone]
      dsimp only [Body.encode] at walked ⊢
      rw [found]
      dsimp only
      rw [List.take_length, walked]
      simp only [Seen.visit, found]

theorem parseBlocks_blocks (blocks : List Block) (fuel : Nat) (seen : Seen) (enough : blocks.length ≤ fuel) :
    AsterixParser.parseBlocks floats decoders fuel (blocks.flatMap Block.encode) seen.parser seen.targets seen.reports =
      let all := blocks.foldl (Seen.visit floats decoders) seen
      (all.parser, .ok (all.targets, all.reports)) := by
  induction blocks generalizing fuel seen with
  | nil => cases fuel <;> rfl
  | cons b blocks ih =>
    obtain ⟨fuel, rfl⟩ : ∃ k, fuel = k + 1 := ⟨fuel - 1, by simp at enough; omega⟩
    rw [List.flatMap_cons, parseBlocks_block]
    exact ih fuel _ (by simpa using enough)

theorem blocks_le_length (blocks : List Block) : blocks.length ≤ (blocks.flatMap Block.encode).length := by
  induction blocks with
  | nil => exact Nat.le_refl 0
  | cons b blocks ih =>
    have size := block_length b.cat b.body.encode
    rw [List.flatMap_cons, List.length_append, List.length_cons, Block.encode]
    omega

/-- A record written for a UAP of at most 255 items is walked back to its items and no further; the
    records of a block and the blocks of a datagram are then visited one by one, to the last octet. -/
theorem records_are_walked_back (cat : UInt8) (uap : Uap) (few : uap.length ≤ 255) :
    (∀ (record : Record uap) (named : List Item), (∀ item, item ∈ named ↔ item ∈ record.entries.map Prod.fst) →
      ∃ spec, fspec uap named = some spec ∧
        ∀ before after, walkRecord cat uap (before ++ (spec ++ record.bytes) ++ after) before.length =
          .ok (record.entries, before.length + (spec ++ record.bytes).length)) ∧
    (∀ record : Record uap, record.entries ≠ [] →
      feedFspec ((placesOf uap record.entries).map (1 + ·)) = fspec uap (record.entries.map Prod.fst)) ∧
    (∀ (records : List (Record uap)) (rest : Bytes), 3 + (records.flatMap Record.encode).length < 65536 →
      blockHeader (block cat (records.flatMap Record.encode) ++ rest) =
        .ok (cat, (block cat (records.flatMap Record.encode)).length) ∧
      ∀ (σ : Type) (visit : σ → Items → Bytes → σ) (state : σ),
        walkRecords cat uap (block cat (records.flatMap Record.encode)) visit
            (block cat (records.flatMap Record.encode)).length 3 state =
          (records.foldl (fun s r => visit s r.entries r.encode) state, .ok ())) ∧
    (∀ (p : AsterixParser) (blocks : List Block),
      p.parseDatagram floats decoders (blocks.flatMap Block.encode) =
        let seen := blocks.foldl (Seen.visit floats decoders) { parser := p }
        (seen.parser, .ok (seen.targets, seen.reports))) := by
  refine ⟨walkRecord_named cat few, feedFspec_record, ?_, ?_⟩
  · intro records rest fits
    refine ⟨blockHeader_block cat _ rest fits, ?_⟩
    intro σ visit state
    exact walkRecords_block cat few visit records state
  · intro p blocks
    exact parseBlocks_blocks floats decoders blocks _ { parser := p } (blocks_le_length blocks)

end

/-- A CAT048 plot of three items, one of them a compound with one subfield. -/
def plot : Record Cat048.uap where
  entries := [(⟨10⟩, [25, 10]), (⟨130⟩, [0x80, 0xab]), (⟨220⟩, [0x4c, 0xa2, 0xd6])]
  formed := by
    intro entry member
    simp only [List.mem_cons, List.not_mem_nil, or_false] at member
    rcases member with rfl | rfl | rfl
    · exact ⟨0, .fixed 2, by decide, rfl, rfl⟩
    · exact ⟨6, .compound Cat048.sub130, by decide, rfl, [0x80], [(0, [0xab])], Chained.last _ (by decide),
        ⟨[0xab], [], rfl, rfl, rfl⟩, rfl⟩
    · exact ⟨7, .fixed 3, by decide, rfl, rfl⟩
  ordered := by decide

/-- Decoders of records without a position. -/
def unpositioned : Decoders := ⟨fun _ _ => {}, fun _ => {}, fun _ _ => {}, fun _ => {}⟩

theorem plot_is_walked_back :
    ∃ spec, fspec Cat048.uap [⟨220⟩, ⟨10⟩, ⟨130⟩] = some spec ∧
      ∀ before after, walkRecord 48 Cat048.uap (before ++ (spec ++ plot.bytes) ++ after) before.length =
        .ok (plot.entries, before.length + (spec ++ plot.bytes).length) :=
  (records_are_walked_back Floats.idle unpositioned 48 Cat048.uap (by decide)).1 plot _ (by intro item; simp [plot]; tauto)

/-- A UAP of 256 items of one octet. -/
def wideUap : Uap := (List.range 256).map fun n => (⟨n⟩, .fixed 1)

theorem wideUap_last : position wideUap ⟨255⟩ = some 255 := by decide +kernel

/-- Its last item alone. -/
def lastItem : Record wideUap where
  entries := [(⟨255⟩, [7])]
  formed := by
    intro entry member
    rw [List.mem_singleton.mp member]
    exact ⟨255, .fixed 1, wideUap_last, by simp [wideUap], rfl⟩
  ordered := by rw [placesOf, List.filterMap_cons, wideUap_last]; exact List.pairwise_singleton _ _

/-- The FRN counter stops at 255, so the item with FRN 256 is taken for the one before it. -/
theorem wide_uap_is_misread : walkRecord 48 wideUap lastItem.encode 0 ≠ .ok (lastItem.entries, lastItem.encode.length) := by
  have misread : walkRecord 48 wideUap lastItem.encode 0 = .ok ([(⟨254⟩, [7])], 38) := by decide +kernel
  rw [misread]
  intro same
  cases same

end AsterixProof
