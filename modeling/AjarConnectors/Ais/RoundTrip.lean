import AjarConnectors.Ais.Parser

namespace AisModel

open HttpModel EventModel

variable {ρ : Type} (floats : Floats)

/-- Frames given to `parse_sentence` one after the other, each at its time. -/
def Parser.parseSentences (p : Parser ρ) :
    List (Nat × Bytes) → List (Except AisError (Option AisPosition)) × Parser ρ
  | [] => ([], p)
  | (now, frame) :: rest =>
    let (result, p) := p.parseSentence floats now frame
    let (results, p) := p.parseSentences rest
    (result :: results, p)

/-- The last frame completes a message, which is decoded; the others only change what is pending. -/
def Completes (p : Parser ρ) (frames : List (Nat × Bytes)) (bits : Bits) : Prop :=
  ∃ q raws result p', p.parseSentences floats frames = (List.replicate (frames.length - 1) (.ok none) ++ [result], p') ∧
    (result, p') = ({ p with pending := q } : Parser ρ).decode floats bits raws

/-- The sentences of one message, fields as they were written. -/
def feedMessage (fields : List FeedModel.Field) (seq : UInt8) (channel : Char) : List Text :=
  let (payload, fill) := (FeedModel.writeFields fields).armoured
  FeedModel.sentences payload fill seq channel

end AisModel

namespace AisProof

open AisModel EventModel
open HttpModel (Text Bytes trimText)
open TextModel (parseU8)
open FeedModel (decimal sentence chunks talker body sentences maxChars writeFields fieldsWidth Field)

theorem chunks_flatten (payload : Text) : (chunks payload).flatten = payload := by
  have general : ∀ count, ((List.range count).map fun k => (payload.drop (maxChars * k)).take maxChars).flatten =
      payload.take (maxChars * count) := by
    intro count
    induction count with
    | zero => rfl
    | succ count ih =>
      rw [List.range_succ, List.map_append, List.flatten_append, ih, List.map_singleton, List.flatten_singleton,
        Nat.mul_succ, List.take_add]
  rw [chunks, general]
  apply List.take_of_length_le
  rw [maxChars]
  omega

theorem chunks_mem {payload chunk : Text} (member : chunk ∈ chunks payload) : ∀ c ∈ chunk, c ∈ payload := by
  rcases List.mem_map.mp member with ⟨k, _, rfl⟩
  exact fun c inside => List.mem_of_mem_drop (List.mem_of_mem_take inside)

theorem armour_plain : ∀ six < 64, Char.ofNat (FeedModel.armour six) ≠ ',' ∧ Char.ofNat (FeedModel.armour six) ≠ '*' := by
  decide

theorem armoured_plain (b : FeedModel.Bits) : ',' ∉ b.armoured.1 ∧ '*' ∉ b.armoured.1 := by
  rw [armoured_sixes]
  constructor <;> intro member <;> rcases List.mem_map.mp member with ⟨six, inside, same⟩
  · exact (armour_plain six (sixesOf_small b.bits six inside)).1 same
  · exact (armour_plain six (sixesOf_small b.bits six inside)).2 same

/-- One multipart set: what all its sentences share. -/
structure Parts where
  total : Nat
  seqField : Text
  channel : Char
  fill : Nat

namespace Parts

variable (parts : Parts)

def fillOf (i : Nat) : Nat := if i + 1 = parts.total then parts.fill else 0

def text (chunk : Text) (i : Nat) : Text :=
  sentence (body parts.total (i + 1) parts.seqField parts.channel chunk (parts.fillOf i))

def raw (chunk : Text) (i : Nat) : Bytes :=
  rawOf (body parts.total (i + 1) parts.seqField parts.channel chunk (parts.fillOf i))

def seqValue : Nat := (parseU8 10 parts.seqField).getD 0

def read (chunk : Text) (i : Nat) : Sentence :=
  { talker := talker, fragCount := parts.total, fragNum := i + 1, seq := parts.seqValue, channel := [parts.channel],
    payload := chunk, fill := parts.fillOf i, raw := parts.raw chunk i }

def key : ReasmKey := ⟨talker, [parts.channel], parts.seqValue⟩

structure Clean : Prop where
  few : parts.total < 256
  filled : parts.fill < 256
  sequence : ',' ∉ parts.seqField ∧ '*' ∉ parts.seqField
  radio : parts.channel ≠ ',' ∧ parts.channel ≠ '*'

variable {parts}

theorem Clean.plain (clean : parts.Clean) {chunk : Text} {i : Nat} (inside : i < parts.total)
    (payload : ',' ∉ chunk ∧ '*' ∉ chunk) :
    Plain parts.total (i + 1) (parts.fillOf i) parts.seqField chunk parts.channel := by
  have filled : parts.fillOf i < 256 := by
    rw [fillOf]
    split
    · exact clean.filled
    · decide
  exact ⟨clean.few, Nat.succ_le_succ (Nat.zero_le i), inside, filled, clean.sequence, payload, clean.radio⟩

theorem Clean.reads (clean : parts.Clean) {chunk : Text} {i : Nat} (inside : i < parts.total)
    (payload : ',' ∉ chunk ∧ '*' ∉ chunk) :
    readSentence (Utf8.encodeText (parts.text chunk i)) = .ok (some (parts.read chunk i)) :=
  readSentence_body (clean.plain inside payload)

end Parts

section

variable {q rest : Reassembly} {now : Nat} {s : Sentence} {entry : Pending}

theorem receive_single (q : Reassembly) (now : Nat) (single : s.fragCount = 1) {bits : Bits} (payload : Bits.fromPayload s.payload s.fill = .ok bits) :
    receive q now s = (.ok (some (bits, [s.raw])), q) := by
  rw [receive, if_pos single, payload]
  rfl

theorem receive_kept (several : s.fragCount ≠ 1) (taken : (q.retain now).take s now = (some entry, rest))
    (more : s.fragNum < s.fragCount) :
    receive q now s = (.ok none, Function.update rest s.key
      (some { entry with payload := entry.payload ++ s.payload, raws := entry.raws ++ [s.raw] })) := by
  rw [receive, if_neg several, taken]
  exact if_pos more

theorem receive_completed (several : s.fragCount ≠ 1) (taken : (q.retain now).take s now = (some entry, rest))
    (last : ¬ s.fragNum < s.fragCount) {bits : Bits}
    (payload : Bits.fromPayload (entry.payload ++ s.payload) s.fill = .ok bits) :
    receive q now s = (.ok (some (bits, entry.raws ++ [s.raw])), rest) := by
  rw [receive, if_neg several, taken]
  dsimp only
  rw [if_neg last, payload]
  rfl

/-- A partial message that still lives is found by its next fragment. -/
theorem take_next (later : s.fragNum ≠ 1) (found : q s.key = some entry) (fresh : now - entry.firstSeen < reasmTtl)
    (next : entry.continues s.fragCount s.fragNum = true) :
    ∃ rest, (q.retain now).take s now = (some entry, rest) := by
  refine ⟨Function.update (q.retain now) s.key none, ?_⟩
  rw [Reassembly.take, if_neg later, Reassembly.retain, found, Option.filter_some, if_pos (by simpa using fresh),
    Option.filter_some, if_pos next]

end

section

variable {ρ : Type} (floats : Floats) (p : Parser ρ)

theorem parseSentence_kept {frame : Bytes} {s : Sentence} {now : Nat} {q : Reassembly}
    (reads : readSentence frame = .ok (some s)) (received : receive p.pending now s = (.ok none, q)) :
    p.parseSentence floats now frame = (.ok none, { p with pending := q }) := by
  rw [Parser.parseSentence, reads]
  dsimp only
  rw [received]

theorem parseSentence_completed {frame : Bytes} {s : Sentence} {now : Nat} {q : Reassembly} {bits : Bits}
    {raws : List Bytes} (reads : readSentence frame = .ok (some s))
    (received : receive p.pending now s = (.ok (some (bits, raws)), q)) :
    p.parseSentence floats now frame = ({ p with pending := q } : Parser ρ).decode floats bits raws := by
  rw [Parser.parseSentence, reads]
  dsimp only
  rw [received]

theorem parseSentences_cons {now : Nat} {frame : Bytes} {result : Except AisError (Option AisPosition)} {p' : Parser ρ}
    (step : p.parseSentence floats now frame = (result, p')) (rest : List (Nat × Bytes)) :
    p.parseSentences floats ((now, frame) :: rest) =
      (result :: (p'.parseSentences floats rest).1, (p'.parseSentences floats rest).2) := by
  rw [Parser.parseSentences, step]

variable {floats p}

theorem completes_last {now : Nat} {frame : Bytes} {bits : Bits} {q : Reassembly} {raws : List Bytes}
    (step : p.parseSentence floats now frame = ({ p with pending := q } : Parser ρ).decode floats bits raws) :
    Completes floats p [(now, frame)] bits := by
  cases decoded : ({ p with pending := q } : Parser ρ).decode floats bits raws with
  | mk result p' =>
    rw [decoded] at step
    exact ⟨q, raws, result, p', parseSentences_cons floats p step [], decoded.symm⟩

theorem completes_later {now : Nat} {frame : Bytes} {bits : Bits} {q : Reassembly} {rest : List (Nat × Bytes)}
    (step : p.parseSentence floats now frame = (.ok none, { p with pending := q })) (some : rest ≠ [])
    (later : Completes floats { p with pending := q } rest bits) : Completes floats p ((now, frame) :: rest) bits := by
  rcases later with ⟨q', raws, result, p', run, decoded⟩
  refine ⟨q', raws, result, p', ?_, decoded⟩
  have count : ((now, frame) :: rest).length - 1 = (rest.length - 1) + 1 := by
    have filled := List.length_pos_iff.mpr some
    rw [List.length_cons]
    omega
  rw [parseSentences_cons floats p step, run, count, List.replicate_succ]
  rfl

variable {parts : Parts} {q : Reassembly}

theorem later_fragments (clean : parts.Clean) {rest : List Text} {i first : Nat} {times : List Nat} {payload : Text}
    {raws : List Bytes} {bits : Bits} (filled : rest ≠ []) (count : i + rest.length = parts.total) (started : 1 ≤ i)
    (clear : ∀ chunk ∈ rest, ',' ∉ chunk ∧ '*' ∉ chunk) (timed : times.length = rest.length)
    (prompt : ∀ t ∈ times, t - first < reasmTtl)
    (found : q parts.key = some ⟨parts.total, payload, raws, first⟩) (held : raws.length = i)
    (whole : Bits.fromPayload (payload ++ rest.flatten) parts.fill = .ok bits) :
    Completes floats { p with pending := q }
      (times.zip ((rest.zipIdx i).map fun c => Utf8.encodeText (parts.text c.1 c.2))) bits := by
  induction rest generalizing i times payload raws q with
  | nil => exact absurd rfl filled
  | cons chunk rest ih =>
    match times, timed with
    | now :: times, timed =>
      rw [List.length_cons] at count
      have reads := clean.reads (i := i) (by omega) (clear chunk List.mem_cons_self)
      have several : (parts.read chunk i).fragCount ≠ 1 := by
        change parts.total ≠ 1
        omega
      have later : (parts.read chunk i).fragNum ≠ 1 := by
        change i + 1 ≠ 1
        omega
      have next : Pending.continues ⟨parts.total, payload, raws, first⟩ (parts.read chunk i).fragCount
          (parts.read chunk i).fragNum = true := by
        simp [Pending.continues, Parts.read, held]
      rcases take_next later found (prompt now List.mem_cons_self) next with ⟨others, taken⟩
      rw [List.zipIdx_cons, List.map_cons, List.zip_cons_cons]
      cases rest with
      | nil =>
        have last : ¬ (parts.read chunk i).fragNum < (parts.read chunk i).fragCount := by
          change ¬ i + 1 < parts.total
          rw [List.length_nil] at count
          omega
        have fill : (parts.read chunk i).fill = parts.fill := if_pos count
        rw [List.flatten_singleton] at whole
        have received := receive_completed several taken last (by rw [fill]; exact whole)
        have none : times = [] := List.length_eq_zero_iff.mp (Nat.succ.inj timed)
        rw [none]
        exact completes_last (parseSentence_completed floats { p with pending := q } reads received)
      | cons second rest =>
        rw [List.length_cons] at count
        have more : (parts.read chunk i).fragNum < (parts.read chunk i).fragCount := by
          change i + 1 < parts.total
          omega
        have received := receive_kept several taken more
        apply completes_later (parseSentence_kept floats { p with pending := q } reads received)
        · match times, timed with
          | _ :: _, _ => simp
        · exact ih (by simp) (by rw [List.length_cons]; omega) (by omega)
            (fun c member => clear c (List.mem_cons_of_mem _ member)) (Nat.succ.inj timed)
            (fun t member => prompt t (List.mem_cons_of_mem _ member)) (Function.update_self _ _ _)
            (by rw [List.length_append, held]; rfl) (by rw [List.append_assoc]; exact whole)

/-- All the sentences of one payload, from any state of the parser. -/
theorem fragments_complete (floats : Floats) (p : Parser ρ) (clean : parts.Clean) {cs : List Text} {times : List Nat} {bits : Bits} (filled : cs ≠ [])
    (count : cs.length = parts.total) (clear : ∀ chunk ∈ cs, ',' ∉ chunk ∧ '*' ∉ chunk)
    (timed : times.length = cs.length) (prompt : ∀ t ∈ times, t - times.headD 0 < reasmTtl)
    (whole : Bits.fromPayload cs.flatten parts.fill = .ok bits) :
    Completes floats p (times.zip (cs.zipIdx.map fun c => Utf8.encodeText (parts.text c.1 c.2))) bits := by
  match cs, times, filled, timed with
  | chunk :: rest, now :: times, filled, timed =>
    rw [List.length_cons] at count
    have reads := clean.reads (i := 0) (by omega) (clear chunk List.mem_cons_self)
    rw [List.zipIdx_cons, List.map_cons, List.zip_cons_cons]
    cases rest with
    | nil =>
      have single : (parts.read chunk 0).fragCount = 1 := count.symm
      have fill : (parts.read chunk 0).fill = parts.fill := if_pos count
      have none : times = [] := List.length_eq_zero_iff.mp (Nat.succ.inj timed)
      rw [List.flatten_singleton] at whole
      have received := receive_single p.pending now single (by rw [fill]; exact whole)
      rw [none]
      exact completes_last (parseSentence_completed floats p reads received)
    | cons second rest =>
      rw [List.length_cons] at count
      have several : (parts.read chunk 0).fragCount ≠ 1 := by
        change parts.total ≠ 1
        omega
      have more : (parts.read chunk 0).fragNum < (parts.read chunk 0).fragCount := by
        change 0 + 1 < parts.total
        omega
      have taken : (p.pending.retain now).take (parts.read chunk 0) now =
          (some ⟨parts.total, [], [], now⟩, p.pending.retain now) := if_pos rfl
      have received := receive_kept several taken more
      apply completes_later (parseSentence_kept floats p reads received)
      · match times, timed with
        | _ :: _, _ => simp
      · exact later_fragments clean (by simp) (by rw [List.length_cons]; omega) (by omega)
          (fun c member => clear c (List.mem_cons_of_mem _ member)) (Nat.succ.inj timed)
          (fun t member => prompt t (List.mem_cons_of_mem _ member)) (Function.update_self _ _ _) rfl whole

end

/-- A message of the feed reaches `decode` with the bits that were written. -/
theorem feed_completes {ρ : Type} (floats : Floats) (p : Parser ρ) (fields : List Field) (seq : UInt8) (channel : Char)
    (times : List Nat) (radio : channel ≠ ',' ∧ channel ≠ '*') (written : fieldsWidth fields ≠ 0)
    (few : (feedMessage fields seq channel).length ≤ 255)
    (timed : times.length = (feedMessage fields seq channel).length)
    (prompt : ∀ t ∈ times, t - times.headD 0 < reasmTtl) :
    ∃ bits, Completes floats p (times.zip ((feedMessage fields seq channel).map Utf8.encodeText)) bits ∧
      Holds bits (writeFields fields).bits := by
  let b := writeFields fields
  rcases fromPayload_armoured b with ⟨bits, payload, holds⟩
  refine ⟨bits, ?_, holds⟩
  let parts : Parts := ⟨(chunks b.armoured.1).length, if 1 < (chunks b.armoured.1).length then decimal seq.toNat else [],
    channel, b.armoured.2⟩
  have texts : feedMessage fields seq channel = (chunks b.armoured.1).zipIdx.map fun c => parts.text c.1 c.2 := rfl
  have size : (feedMessage fields seq channel).length = (chunks b.armoured.1).length := by
    rw [texts, List.length_map, List.length_zipIdx]
  have clean : parts.Clean := by
    refine ⟨by rw [size] at few; exact Nat.lt_succ_of_le few, ?_, ?_, radio⟩
    · change (6 - b.bits.length % 6) % 6 < 256
      omega
    · change ',' ∉ (if _ then _ else _) ∧ '*' ∉ (if _ then _ else _)
      split
      · exact (decimal_parse seq.toNat seq.toNat_lt).2
      · simp
  have filled : chunks b.armoured.1 ≠ [] := by
    have width : b.bits.length = fieldsWidth fields := by rw [written_fields, fields_length]
    intro empty
    have none := congrArg List.length (chunks_flatten b.armoured.1)
    rw [empty, armoured_sixes, List.length_map, sixesOf, List.length_map, List.length_range] at none
    change 0 = _ at none
    omega
  have clear : ∀ chunk ∈ chunks b.armoured.1, ',' ∉ chunk ∧ '*' ∉ chunk := by
    intro chunk member
    have plain := armoured_plain b
    exact ⟨fun inside => plain.1 (chunks_mem member _ inside), fun inside => plain.2 (chunks_mem member _ inside)⟩
  have complete := fragments_complete floats p clean filled rfl clear (by rw [timed, size]) prompt
    (by rw [chunks_flatten]; exact payload)
  rw [texts, List.map_map]
  exact complete

/-- What the feed writes is what the connector reads, from any state of the parser: every checksum is
    accepted, every field is read back at its place, and nothing is read past the end. -/
theorem feed_is_read_back {ρ : Type} (floats : Floats) (p : Parser ρ) (fields : List Field) (seq : UInt8)
    (channel : Char) (times : List Nat) (fits : ∀ f ∈ fields, f.Fits) (radio : channel ≠ ',' ∧ channel ≠ '*')
    (written : fieldsWidth fields ≠ 0) (few : (feedMessage fields seq channel).length ≤ 255)
    (timed : times.length = (feedMessage fields seq channel).length)
    (prompt : ∀ t ∈ times, t - times.headD 0 < reasmTtl) :
    (∀ text ∈ feedMessage fields seq channel, verifyChecksum (stripTagBlock (trimText text)) = .ok ()) ∧
    ∃ bits, Completes floats p (times.zip ((feedMessage fields seq channel).map Utf8.encodeText)) bits ∧
      (∀ before f after, fields = before ++ f :: after → ReadsBack bits (fieldsWidth before) f) ∧
      ∀ start n, fieldsWidth fields < start + n →
        bits.optU start n = none ∧ bits.optI start n = none ∧ bits.optText start n = none := by
  constructor
  · intro text member
    rcases List.mem_map.mp member with ⟨c, _, rfl⟩
    exact sentence_checksum _
  · rcases feed_completes floats p fields seq channel times radio written few timed prompt with ⟨bits, complete, holds⟩
    have width : (writeFields fields).bits.length = fieldsWidth fields := by rw [written_fields, fields_length]
    refine ⟨bits, complete, ?_, ?_⟩
    · intro before f after parts
      subst parts
      exact fields_read_back before after (fits f (by simp)) holds
    · intro start n past
      rw [← width] at past
      exact ⟨holds.optU_past past, holds.optI_past past, holds.optText_past past⟩

def freshParser : Parser Unit := Parser.new "ais-coast-1" none ()

/-- A message of an unmapped type: its number, the repeat indicator and the MMSI, then a signed field
    and a text, 406 bits in two sentences. -/
def longFields : List Field :=
  [.unsigned 8 6, .unsigned 0 2, .unsigned 227006760 30, .signed (-5) 8, .text "arco ~avon" 60]

theorem long_message_is_read_back :
    (feedMessage longFields 3 'B').length = 2 ∧
    ∃ bits, Completes Floats.idle freshParser
        (List.zip [100, 105] ((feedMessage longFields 3 'B').map Utf8.encodeText)) bits ∧
      bits.optU 8 30 = some 227006760 ∧ bits.optI 38 8 = some (-5) ∧
      bits.optText 46 360 = some "ARCO  AVON".toList ∧ bits.optU 406 1 = none := by
  refine ⟨by decide +kernel, ?_⟩
  have fits : ∀ f ∈ longFields, f.Fits := by
    intro f member
    simp only [longFields, List.mem_cons, List.not_mem_nil, or_false] at member
    rcases member with rfl | rfl | rfl | rfl | rfl <;> simp [Field.Fits]
  rcases feed_is_read_back Floats.idle freshParser longFields 3 'B' [100, 105] fits (by decide) (by decide +kernel)
    (by decide +kernel) (by decide +kernel) (by decide +kernel) with ⟨_, bits, complete, reads, past⟩
  refine ⟨bits, complete, ?_, ?_, ?_, (past 406 1 (by decide +kernel)).1⟩
  · exact reads [.unsigned 8 6, .unsigned 0 2] (.unsigned 227006760 30) _ rfl
  · exact reads [.unsigned 8 6, .unsigned 0 2, .unsigned 227006760 30] (.signed (-5) 8) _ rfl
  · have text := reads [.unsigned 8 6, .unsigned 0 2, .unsigned 227006760 30, .signed (-5) 8] (.text "arco ~avon" 60) _ rfl
    have shown : shownText "arco ~avon" 60 = some "ARCO  AVON".toList := by decide +kernel
    exact text.trans shown

def indentedFields : List Field := [.unsigned 8 6, .unsigned 0 2, .unsigned 227006760 30, .text " AVON" 8]

/-- A text that starts with a blank comes back without it; a comma for a channel moves the payload to
    another field; a fragment that comes ten seconds late completes nothing. -/
theorem leading_blank_is_lost :
    (∃ bits, Completes Floats.idle freshParser (List.zip [0] ((feedMessage indentedFields 0 'A').map Utf8.encodeText)) bits ∧
      bits.optText 38 48 = some "AVON".toList ∧ bits.optText 38 48 ≠ some " AVON".toList) ∧
    ((feedMessage indentedFields 0 ',').map fun text =>
      (readSentence (Utf8.encodeText text)).toOption.join.map Sentence.payload) = [some []] ∧
    (freshParser.parseSentences Floats.idle
      (List.zip [0, 10000000000] ((feedMessage longFields 3 'B').map Utf8.encodeText))).1.all (· matches .ok none) = true := by
  refine ⟨?_, by decide +kernel, by decide +kernel⟩
  rcases feed_completes Floats.idle freshParser indentedFields 0 'A' [0] (by decide) (by decide +kernel)
    (by decide +kernel) (by decide +kernel) (by decide +kernel) with ⟨bits, complete, holds⟩
  have text : ReadsBack bits 38 (.text " AVON" 8) :=
    fields_read_back [.unsigned 8 6, .unsigned 0 2, .unsigned 227006760 30] [] trivial holds
  have shown : shownText " AVON" 8 = some "AVON".toList := by decide +kernel
  have read : bits.optText 38 48 = some "AVON".toList := text.trans shown
  refine ⟨bits, complete, read, ?_⟩
  rw [read]
  decide +kernel

end AisProof
