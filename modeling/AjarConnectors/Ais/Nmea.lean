import AjarConnectors.Ais.Fields
import AjarConnectors.Http.Rfc9112

namespace FeedModel

open HttpModel (Text)

def hexDigit (n : Nat) : Char := if n < 10 then Char.ofNat (48 + n) else Char.ofNat (55 + n)

def decimal (n : Nat) : Text := (toString n).toList

def checksum (body : Text) : UInt8 := (Utf8.encodeText body).foldl (· ^^^ ·) 0

/-- One NMEA 0183 sentence with its checksum as two upper-case hex digits. -/
def sentence (body : Text) : Text :=
  '!' :: body ++ ['*', hexDigit ((checksum body).toNat / 16), hexDigit ((checksum body).toNat % 16), '\r', '\n']

def maxChars : Nat := 56

def chunks (payload : Text) : List Text :=
  (List.range ((payload.length + 55) / maxChars)).map fun k => (payload.drop (maxChars * k)).take maxChars

def talker : Text := "AIVDM".toList

def body (total number : Nat) (seqField : Text) (channel : Char) (chunk : Text) (fill : Nat) : Text :=
  talker ++ ',' :: decimal total ++ ',' :: decimal number ++ ',' :: seqField ++ ',' :: channel :: ',' :: chunk ++
    ',' :: decimal fill

/-- The sentences for one payload: one, or a multipart set sharing a sequence id. -/
def sentences (payload : Text) (fill : Nat) (seq : UInt8) (channel : Char) : List Text :=
  let total := (chunks payload).length
  (chunks payload).zipIdx.map fun (chunk, i) =>
    let seqField := if 1 < total then decimal seq.toNat else []
    -- Fill bits belong to the final fragment only.
    let f := if i + 1 = total then fill else 0
    sentence (body total (i + 1) seqField channel chunk f)

end FeedModel

namespace AisModel

open HttpModel TextModel

/-- Strip an NMEA 4.0 TAG block (`\...\` before the sentence). -/
def stripTagBlock (s : Text) : Text :=
  match s with
  | '\\' :: rest => match splitOnce '\\' rest with
    | some (_, after) => after
    | none => s
  | _ => s

/-- What stands before the last `*` and after it. -/
def rfindStar (s : Text) : Option (Text × Text) :=
  (splitOnce '*' s.reverse).map fun parts => (parts.2.reverse, parts.1.reverse)

/-- The trailing `*HH` is the XOR of every byte between the `!`/`$` and the `*`. -/
def verifyChecksum (s : Text) : Except AisError Unit :=
  match rfindStar s with
  | none => .error .checksum
  | some (before, after) =>
    if after.length < 2 then .error .checksum
    else match parseU8 16 (after.take 2) with
      | none => .error .checksum
      | some given =>
        if ((Utf8.encodeText before.tail).foldl (· ^^^ ·) 0).toNat = given then .ok () else .error .checksum

/-- The comma-separated fields up to the first `*`. -/
def splitFields (s : Text) : List Text := (s.tail.takeWhile (· != '*')).splitOn ','

def endsWith (suffix text : Text) : Bool := suffix.isSuffixOf text

structure Sentence where
  talker : Text
  fragCount : Nat
  fragNum : Nat
  seq : Nat
  channel : Text
  payload : Text
  fill : Nat
  raw : Bytes

/-- What `parse_sentence` reads from one frame; nothing for an NMEA sentence that is not AIS. -/
def readSentence (frame : Bytes) : Except AisError (Option Sentence) :=
  match Utf8.decode frame with
  | none => .error .notAscii
  | some text =>
    let original := trimText text
    let s := stripTagBlock original
    if !(s.head? == some '!' || s.head? == some '$') then .error .notNmea
    else match verifyChecksum s with
      | .error e => .error e
      | .ok () => match splitFields s with
        | [] => .ok none
        | talker :: rest =>
          if !(endsWith "VDM".toList talker || endsWith "VDO".toList talker) then .ok none
          else match rest with
            | count :: num :: seq :: channel :: payload :: fill :: _ =>
              match parseU8 10 count, parseU8 10 num with
              | some fragCount, some fragNum =>
                if fragCount = 0 ∨ fragNum = 0 ∨ fragCount < fragNum then .error .fields
                else .ok (some
                  { talker := talker, fragCount := fragCount, fragNum := fragNum, seq := (parseU8 10 seq).getD 0,
                    channel := channel, payload := payload, fill := (parseU8 10 fill).getD 0,
                    raw := Utf8.encodeText original })
              | _, _ => .error .fields
            | _ => .error .fields

/-- Reassembly key for a multi-fragment sentence. -/
structure ReasmKey where
  talker : Text
  channel : Text
  seq : Nat
  deriving DecidableEq

def Sentence.key (s : Sentence) : ReasmKey := ⟨s.talker, s.channel, s.seq⟩

structure Pending where
  total : Nat
  payload : Text
  raws : List Bytes
  firstSeen : Nat

/-- Fragment `fragNum` of `fragCount` is the next one this message needs. -/
def Pending.continues (p : Pending) (fragCount fragNum : Nat) : Bool :=
  p.total == fragCount && p.raws.length + 1 == fragNum

abbrev Reassembly := ReasmKey → Option Pending

/-- Ten seconds, in nanoseconds. -/
def reasmTtl : Nat := 10000000000

def Reassembly.retain (pending : Reassembly) (now : Nat) : Reassembly := fun key =>
  (pending key).filter fun p => now - p.firstSeen < reasmTtl

/-- The partial message a fragment belongs to, and the others. -/
def Reassembly.take (pending : Reassembly) (s : Sentence) (now : Nat) : Option Pending × Reassembly :=
  if s.fragNum = 1 then (some ⟨s.fragCount, [], [], now⟩, pending)
  else ((pending s.key).filter fun p => p.continues s.fragCount s.fragNum, Function.update pending s.key none)

/-- The message a sentence completes, as bits and the sentences it came in. -/
def receive (pending : Reassembly) (now : Nat) (s : Sentence) :
    Except AisError (Option (Bits × List Bytes)) × Reassembly :=
  if s.fragCount = 1 then
    ((Bits.fromPayload s.payload s.fill).map fun bits => some (bits, [s.raw]), pending)
  else
    match (pending.retain now).take s now with
    | (none, pending) => (.ok none, pending)
    | (some entry, pending) =>
      let entry := { entry with payload := entry.payload ++ s.payload, raws := entry.raws ++ [s.raw] }
      if s.fragNum < s.fragCount then (.ok none, Function.update pending s.key (some entry))
      else ((Bits.fromPayload entry.payload s.fill).map fun bits => some (bits, entry.raws), pending)

end AisModel

namespace AisProof

open HttpModel HttpProof TextModel AisModel
open FeedModel (hexDigit decimal checksum sentence chunks talker body sentences maxChars)

theorem hex_checksum (sum : UInt8) :
    parseU8 16 [hexDigit (sum.toNat / 16), hexDigit (sum.toNat % 16)] = some sum.toNat ∧
      hexDigit (sum.toNat / 16) ≠ '*' ∧ hexDigit (sum.toNat % 16) ≠ '*' ∧
      TextModel.isWhitespace (hexDigit (sum.toNat % 16)) = false := by
  revert sum
  apply all_bytes
  decide +kernel

theorem decimal_parse : ∀ n < 256, parseU8 10 (decimal n) = some n ∧ ',' ∉ decimal n ∧ '*' ∉ decimal n := by
  decide +kernel

/-- Ends that are not trimmed keep what stands between them. -/
theorem trimWith_ends {p : Char → Bool} {first last : Char} (middle : Text) (starts : p first = false)
    (ends : p last = false) : trimWith p (first :: middle ++ [last]) = first :: middle ++ [last] := by
  rw [trimWith, List.cons_append, List.dropWhile_cons_of_neg (by simp [starts]), ← List.cons_append,
    List.reverse_append, List.reverse_singleton, List.singleton_append,
    List.dropWhile_cons_of_neg (by simp [ends]), List.reverse_cons, List.reverse_reverse]

section

variable {text : Text}

theorem sentence_trim (text : Text) :
    trimText (sentence text) = '!' :: text ++ ['*', hexDigit ((checksum text).toNat / 16),
      hexDigit ((checksum text).toNat % 16)] := by
  have parts : sentence text = [] ++ (('!' :: (text ++ ['*', hexDigit ((checksum text).toNat / 16)])) ++
      [hexDigit ((checksum text).toNat % 16)]) ++ ['\r', '\n'] := by
    simp [sentence]
  rw [trimText, parts, trimWith_around (by simp) (List.all_eq_true.mp (by decide)),
    trimWith_ends _ (by decide) (hex_checksum (checksum text)).2.2.2]
  simp

theorem sentence_checksum (text : Text) : verifyChecksum (stripTagBlock (trimText (sentence text))) = .ok () := by
  have hex := hex_checksum (checksum text)
  have last : rfindStar ('!' :: text ++ ['*', hexDigit ((checksum text).toNat / 16),
      hexDigit ((checksum text).toNat % 16)]) =
      some ('!' :: text, [hexDigit ((checksum text).toNat / 16), hexDigit ((checksum text).toNat % 16)]) := by
    have back : ('!' :: text ++ ['*', hexDigit ((checksum text).toNat / 16),
        hexDigit ((checksum text).toNat % 16)]).reverse =
        [hexDigit ((checksum text).toNat % 16), hexDigit ((checksum text).toNat / 16)] ++
          '*' :: ('!' :: text).reverse := by simp
    rw [rfindStar, back, splitOnce_of_not_mem]
    · simp
    · simp [hex.2.1.symm, hex.2.2.1.symm]
  rw [sentence_trim]
  change verifyChecksum ('!' :: text ++ _) = _
  rw [verifyChecksum, last]
  simp only [List.length_cons, List.length_nil, List.take_succ_cons, List.take_nil, hex.1, List.tail_cons]
  rw [if_neg (by decide)]
  exact if_pos rfl

theorem sentence_fields (clean : '*' ∉ text) :
    splitFields (stripTagBlock (trimText (sentence text))) = text.splitOn ',' := by
  have taken : (text ++ '*' :: [hexDigit ((checksum text).toNat / 16), hexDigit ((checksum text).toNat % 16)]).takeWhile
      (· != '*') = text := by
    rw [List.takeWhile_append_of_pos]
    · simp
    · intro c member
      simp only [bne_iff_ne, ne_eq]
      rintro rfl
      exact clean member
  rw [sentence_trim]
  change List.splitOn ',' ((text ++ _).takeWhile _) = _
  rw [taken]

end

/-- The seven fields of one sentence of the feed. -/
structure Plain (total number fill : Nat) (seqField chunk : Text) (channel : Char) : Prop where
  few : total < 256
  first : 1 ≤ number
  last : number ≤ total
  filled : fill < 256
  sequence : ',' ∉ seqField ∧ '*' ∉ seqField
  payload : ',' ∉ chunk ∧ '*' ∉ chunk
  radio : channel ≠ ',' ∧ channel ≠ '*'

section

variable {total number fill : Nat} {seqField chunk : Text} {channel : Char}

theorem Plain.small (plain : Plain total number fill seqField chunk channel) : number < 256 :=
  Nat.lt_of_le_of_lt plain.last plain.few

theorem talker_plain : ',' ∉ talker ∧ '*' ∉ talker ∧
    (endsWith "VDM".toList talker || endsWith "VDO".toList talker) = true := by decide

theorem body_joined : body total number seqField channel chunk fill = [','].intercalate
    [talker, decimal total, decimal number, seqField, [channel], chunk, decimal fill] := by
  simp [body, List.intercalate]

theorem body_split (plain : Plain total number fill seqField chunk channel) :
    (body total number seqField channel chunk fill).splitOn ',' =
      [talker, decimal total, decimal number, seqField, [channel], chunk, decimal fill] := by
  rw [body_joined, List.splitOn_intercalate]
  · intro field member
    simp only [List.mem_cons, List.not_mem_nil, or_false] at member
    rcases member with rfl | rfl | rfl | rfl | rfl | rfl | rfl
    · exact talker_plain.1
    · exact (decimal_parse total plain.few).2.1
    · exact (decimal_parse number plain.small).2.1
    · exact plain.sequence.1
    · simpa using plain.radio.1.symm
    · exact plain.payload.1
    · exact (decimal_parse fill plain.filled).2.1
  · simp

theorem body_clean (plain : Plain total number fill seqField chunk channel) :
    '*' ∉ body total number seqField channel chunk fill := by
  have count := (decimal_parse total plain.few).2.2
  have num := (decimal_parse number plain.small).2.2
  have filled := (decimal_parse fill plain.filled).2.2
  simp [body, talker_plain.2.1, count, num, filled, plain.sequence.2, plain.payload.2, plain.radio.2.symm]

/-- The bytes kept of a sentence: all but its line end. -/
def rawOf (text : Text) : Bytes := Utf8.encodeText (trimText (sentence text))

theorem readSentence_body (plain : Plain total number fill seqField chunk channel) :
    readSentence (Utf8.encodeText (sentence (body total number seqField channel chunk fill))) = .ok (some
      { talker := talker, fragCount := total, fragNum := number, seq := (parseU8 10 seqField).getD 0,
        channel := [channel], payload := chunk, fill := fill,
        raw := rawOf (body total number seqField channel chunk fill) }) := by
  have starts : (stripTagBlock (trimText (sentence (body total number seqField channel chunk fill)))).head? =
      some '!' := by
    rw [sentence_trim]
    rfl
  have first := plain.first
  have last := plain.last
  have count := (decimal_parse total plain.few).1
  have num := (decimal_parse number plain.small).1
  have filled := (decimal_parse fill plain.filled).1
  unfold readSentence
  rw [Utf8.decode_encodeText]
  simp only [starts, sentence_checksum, sentence_fields (body_clean plain), body_split plain, talker_plain.2.2, count, num, filled]
  rw [if_neg (by decide), if_neg (by decide), if_neg (by omega)]
  rfl

end

end AisProof
