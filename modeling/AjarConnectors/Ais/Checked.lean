import AjarConnectors.Ais.Ttm
import AjarConnectors.Partial.Loops

namespace AisModel

open EventModel BuilderModel HttpModel TextModel Utf8

namespace Bits

/-- `six[i / 6]`, which fails past the end. -/
def bitChecked (b : Bits) (i : Nat) : Option Bool :=
  b.six[i / 6]?.map fun six => (six >>> (5 - i % 6)) &&& 1 == 1

def uChecked (b : Bits) (start n : Nat) : Option Nat :=
  (List.range n).foldlM (fun val i => (b.bitChecked (start + i)).map fun bit =>
    (2 * val + bit.toNat) % 18446744073709551616) 0

def optUChecked (b : Bits) (start n : Nat) : Option (Option Nat) :=
  if start + n ≤ b.validBits then (b.uChecked start n).map some else some none

def optIChecked (b : Bits) (start n : Nat) : Option (Option Int) :=
  (b.optUChecked start n).map fun read =>
    read.map fun u => if u.testBit (n - 1) then asI64 (asI64 u - asI64 (2^n)) else asI64 u

def optTextChecked (b : Bits) (start bits : Nat) : Option (Option Text) :=
  if b.validBits < start + bits then some none
  else do
    let s ← (List.range (bits / 6)).mapM fun i => (b.uChecked (start + i * 6) 6).bind fun v => sixbitAscii[v]?
    let s := trimText (trimEndMatches (· == '@') s)
    some (if s.isEmpty then none else some s)

end Bits

section

variable {ρ : Type} (floats : Floats)

def Parser.staticClassAChecked (p : Parser ρ) (bits : Bits) (mmsi : Nat) : Option (Parser ρ) := do
  let imo ← bits.optUChecked 40 30
  let callsign ← bits.optTextChecked 70 42
  let name ← bits.optTextChecked 112 120
  let type ← bits.optUChecked 232 8
  some (p.mergeIdentity mmsi name callsign (type.bind shipType) (imo.filter (· != 0)))

def Parser.staticClassBChecked (p : Parser ρ) (bits : Bits) (mmsi : Nat) : Option (Parser ρ) := do
  match ← bits.optUChecked 38 2 with
  | some 0 => some (p.mergeIdentity mmsi (← bits.optTextChecked 40 120) none none none)
  | some 1 => do
    let type ← bits.optUChecked 40 8
    some (p.mergeIdentity mmsi none (← bits.optTextChecked 90 42) (type.bind shipType) none)
  | _ => some p

def Parser.noteStaticChecked (p : Parser ρ) (bits : Bits) (msgType mmsi : Nat) : Option (Parser ρ) :=
  if msgType = 5 then p.staticClassAChecked bits mmsi
  else if msgType = 24 then p.staticClassBChecked bits mmsi
  else some p

def Parser.positionChecked (p : Parser ρ) (bits : Bits) (msgType mmsi : Nat) (layout : Layout) :
    Option (AisPosition × Parser ρ) := do
  let (sogOff, lonOff, latOff, cogOff, hdgOff) := layout.offsets
  let nav ← if layout = .classA then bits.optUChecked 38 4 else some none
  let rot ← if layout = .classA then bits.optIChecked 42 8 else some none
  let name ← if layout = .classB true then bits.optTextChecked 143 120 else some none
  let type ← if layout = .classB true then bits.optUChecked 263 8 else some none
  let p := if layout = .classB true then p.mergeIdentity mmsi name none (type.bind AisModel.shipType) none else p
  let id := (p.identities.get mmsi).getD {}
  let lat ← bits.optIChecked latOff 27
  let lon ← bits.optIChecked lonOff 28
  let sog ← bits.optUChecked sogOff 10
  let cog ← bits.optUChecked cogOff 12
  let heading ← bits.optUChecked hdgOff 9
  some ({ msgType := msgType
          mmsi := mmsi
          lat := degrees floats Rust.minusNinety Rust.ninety lat
          lon := degrees floats Rust.minusOneEighty Rust.oneEighty lon
          sogKn := (sog.filter (· != 1023)).map fun (v : Nat) => floats.div (floats.ofInt v) (floats.ofInt 10)
          cogDeg := (cog.filter (· != 3600)).map fun (v : Nat) => floats.div (floats.ofInt v) (floats.ofInt 10)
          headingDeg := (heading.filter (· != 511)).map fun (v : Nat) => floats.ofInt v
          rotDegmin := rot.bind (decodeRot floats)
          navStatus := nav.bind AisModel.navStatus
          shipType := id.shipType
          name := id.name
          callsign := id.callsign
          imo := id.imo
          raw := []
          truncated := false }, p)

def Parser.decodeChecked (p : Parser ρ) (bits : Bits) (raws : List Bytes) :
    Option (Except AisError (Option AisPosition) × Parser ρ) :=
  if bits.validBits < 38 then some (.error .truncated, p)
  else do
    let msgType ← bits.uChecked 0 6
    let mmsi ← bits.uChecked 8 30
    let p ← p.noteStaticChecked bits msgType mmsi
    let p := { p with carry := p.carry.entry mmsi {} }
    match layoutOf msgType with
    | none => some (.ok none, raws.foldl (fun p raw => p.pushRaw mmsi raw) p)
    | some layout =>
      let (raw, truncated, carry) := Carry.drainWith (p.carry.value mmsi {}) raws
      let p := { p with carry := p.carry.set mmsi carry }
      let (pos, p) ← p.positionChecked floats bits msgType mmsi layout
      some (.ok (some { pos with raw := raw, truncated := truncated }), p)

end

def stripTagBlockChecked (s : Text) : Option Text :=
  match s with
  | '\\' :: rest => match find '\\' rest with
    | some stop => sliceFrom rest (stop + 1)
    | none => some s
  | _ => some s

/-- `get` gives nothing where an index would panic; `s[1..star]` panics. -/
def verifyChecksumChecked (s : Text) : Option (Except AisError Unit) :=
  match rfind '*' s with
  | none => some (.error .checksum)
  | some star => match slice s (star + 1) (star + 3) with
    | none => some (.error .checksum)
    | some given => match parseU8 16 given with
      | none => some (.error .checksum)
      | some given => (slice s 1 star).map fun body =>
        if ((encodeText body).foldl (· ^^^ ·) 0).toNat = given then .ok () else .error .checksum

def splitFieldsChecked (s : Text) : Option (List Text) :=
  (slice s 1 ((find '*' s).getD (byteLen s))).map fun body => body.splitOn ','

/-- `TtmState::wants(&s[1..])`. -/
def radarWantsChecked (s : Text) : Option Bool := do
  let sentence ← sliceFrom s 1
  let head ← sliceTo sentence ((find '*' sentence).getD (byteLen sentence))
  let talker := (head.splitOn ',').headD []
  some (3 ≤ byteLen talker && (endsWith "TTM".toList talker || endsWith "GGA".toList talker ||
    endsWith "RMC".toList talker))

def readSentenceChecked (frame : Bytes) : Option (Except AisError (Option Sentence)) :=
  match Utf8.decode frame with
  | none => some (.error .notAscii)
  | some text => do
    let original := trimText text
    let s ← stripTagBlockChecked original
    if !(s.head? == some '!' || s.head? == some '$') then some (.error .notNmea)
    else match ← verifyChecksumChecked s with
      | .error e => some (.error e)
      | .ok () => do
        let fields ← splitFieldsChecked s
        let talker ← fields[0]?
        if !(endsWith "VDM".toList talker || endsWith "VDO".toList talker) then some (.ok none)
        else if fields.length < 7 then some (.error .fields)
        else match parseU8 10 (← fields[1]?), parseU8 10 (← fields[2]?) with
          | some fragCount, some fragNum => do
            let seq ← fields[3]?
            let payload ← fields[5]?
            let fill ← fields[6]?
            if fragCount = 0 ∨ fragNum = 0 ∨ fragCount < fragNum then some (.error .fields)
            else do
              let channel ← fields[4]?
              some (.ok (some
                { talker := talker, fragCount := fragCount, fragNum := fragNum, seq := (parseU8 10 seq).getD 0,
                  channel := channel, payload := payload, fill := (parseU8 10 fill).getD 0,
                  raw := encodeText original }))
          | _, _ => some (.error .fields)

def Parser.parseSentenceChecked {ρ : Type} (floats : Floats) (p : Parser ρ) (now : Nat) (frame : Bytes) :
    Option (Except AisError (Option AisPosition) × Parser ρ) := do
  match ← readSentenceChecked frame with
  | .error e => some (.error e, p)
  | .ok none => some (.ok none, p)
  | .ok (some s) => match receive p.pending now s with
    | (.error e, pending) => some (.error e, { p with pending := pending })
    | (.ok none, pending) => some (.ok none, { p with pending := pending })
    | (.ok (some (bits, raws)), pending) => ({ p with pending := pending } : Parser ρ).decodeChecked floats bits raws

/-- The sentence `parse` hands to the radar, and nothing at all where an index or a slice panics. -/
def radarSentenceChecked (frame : Bytes) : Option (Option Text) :=
  match Utf8.decode frame with
  | none => some none
  | some text => do
    let s ← stripTagBlockChecked (trimText text)
    if s.head? == some '$' || s.head? == some '!' then
      some (if ← radarWantsChecked s then some s else none)
    else some none

/-- `parse`, with nothing at all where an index or a slice panics. -/
def Parser.parseChecked (floats : Sphere) (p : Parser TtmState) (a : Arrival) :
    Option (Except AisError (List Event) × Parser TtmState) := do
  match ← radarSentenceChecked a.frame with
  | some s => match ← verifyChecksumChecked s with
    | .error e => some (.error e, p)
    | .ok () => match ← p.radar.handle floats a.now (← splitFieldsChecked s) (encodeText s) with
      | (.error e, r) => some (.error e, { p with radar := r })
      | (.ok none, r) => some (.ok [], { p with radar := r })
      | (.ok (some target), r) =>
        match Rust.run p.sourceId "mim:object" (radarCalls floats.toFloats p.hostility a.id a.clock target) with
        | .error e => some (.error (.build e), { p with radar := r })
        | .ok event => some (.ok [event], { p with radar := r })
  | none => (p.parseSentenceChecked floats.toFloats a.now a.frame).map (stamp floats.toFloats a)

end AisModel

namespace AisProof

open EventModel HttpModel TextModel Utf8 AisModel BitString

section

variable {b : AisModel.Bits}

theorem bitChecked_inside {i : Nat} (inside : i < 6 * b.six.length) : b.bitChecked i = some (b.bit i) := by
  have place : i / 6 < b.six.length := by omega
  rw [AisModel.Bits.bitChecked, AisModel.Bits.bit, Partial.index_inside 0 place]
  rfl

theorem uChecked_inside {start n : Nat} (inside : start + n ≤ 6 * b.six.length) : b.uChecked start n = some (b.u start n) := by
  apply Partial.foldlM_some
  intro val i member
  have small := List.mem_range.mp member
  rw [bitChecked_inside (by omega)]
  rfl

theorem u_lt (start n : Nat) (fits : n ≤ 64) : b.u start n < 2^n := by
  rw [AisModel.Bits.u, foldl_number_wrapping (fun i => b.bit (start + i)) fits]
  have small := number_lt ((List.range n).map fun i => b.bit (start + i))
  rw [List.length_map, List.length_range] at small
  exact small

/-- Every valid bit is a bit of the payload. -/
def Backed (b : AisModel.Bits) : Prop := b.validBits ≤ 6 * b.six.length

theorem fromPayload_backed {payload : Text} {fill : Nat} (read : Bits.fromPayload payload fill = .ok b) : Backed b := by
  unfold Bits.fromPayload at read
  cases found : (encodeText payload).mapM Bits.dearmour with
  | error e =>
    rw [found] at read
    cases read
  | ok sixes =>
    rw [found] at read
    cases read
    change sixes.length * 6 - fill ≤ 6 * sixes.length
    omega

theorem optUChecked_backed (backed : Backed b) (start n : Nat) : b.optUChecked start n = some (b.optU start n) := by
  rw [AisModel.Bits.optUChecked, AisModel.Bits.optU]
  split
  · rename_i valid
    rw [uChecked_inside (Nat.le_trans valid backed)]
    rfl
  · rfl

theorem optIChecked_backed (backed : Backed b) (start n : Nat) : b.optIChecked start n = some (b.optI start n) := by
  rw [AisModel.Bits.optIChecked, optUChecked_backed backed]
  rfl

theorem sixbitAscii_inside {v : Nat} (small : v < 64) : sixbitAscii[v]? = some (sixbitAscii.getD v '@') := by
  have size : sixbitAscii.length = 64 := by decide
  exact Partial.index_inside '@' (by omega)

theorem optTextChecked_backed (backed : Backed b) (start n : Nat) : b.optTextChecked start n = some (b.optText start n) := by
  rw [AisModel.Bits.optTextChecked, AisModel.Bits.optText]
  split
  · rfl
  · rename_i valid
    have read : (List.range (n / 6)).mapM (fun i => (b.uChecked (start + i * 6) 6).bind fun v => sixbitAscii[v]?) =
        some ((List.range (n / 6)).map fun i => sixbitAscii.getD (b.u (start + i * 6) 6) '@') := by
      apply Partial.mapM_some
      intro i member
      have place := List.mem_range.mp member
      have whole : i * 6 + 6 ≤ n := by omega
      rw [Backed] at backed
      rw [uChecked_inside (by omega), Option.bind_some, sixbitAscii_inside (u_lt _ 6 (by omega))]
    rw [read]
    rfl

end

section

variable {ρ : Type} {floats : Floats} {b : AisModel.Bits} (backed : Backed b)

include backed

theorem noteStaticChecked_backed (p : Parser ρ) (msgType mmsi : Nat) :
    p.noteStaticChecked b msgType mmsi = some (p.noteStatic b msgType mmsi) := by
  rw [Parser.noteStaticChecked, Parser.noteStatic]
  split
  · simp only [Parser.staticClassAChecked, Parser.staticClassA, optUChecked_backed backed, optTextChecked_backed backed,
      Option.bind_eq_bind, Option.bind_some]
  · split
    · simp only [Parser.staticClassBChecked, Parser.staticClassB, optUChecked_backed backed,
        optTextChecked_backed backed, Option.bind_eq_bind, Option.bind_some]
      cases b.optU 38 2 with
      | none => rfl
      | some part => rcases part with _ | _ | part <;> rfl
    · rfl

theorem positionChecked_backed (p : Parser ρ) (msgType mmsi : Nat) (layout : AisModel.Layout) :
    p.positionChecked floats b msgType mmsi layout = some (p.position floats b msgType mmsi layout) := by
  cases layout with
  | classA =>
    simp [Parser.positionChecked, Parser.position, optUChecked_backed backed, optIChecked_backed backed]
  | classB extended =>
    cases extended <;> simp [Parser.positionChecked, Parser.position, optUChecked_backed backed,
      optIChecked_backed backed, optTextChecked_backed backed]

theorem decodeChecked_backed (p : Parser ρ) (raws : List Bytes) :
    p.decodeChecked floats b raws = some (p.decode floats b raws) := by
  rw [Parser.decodeChecked, Parser.decode]
  split
  · rfl
  · rename_i valid
    rw [Backed] at backed
    rw [uChecked_inside (by omega), uChecked_inside (by omega)]
    simp only [Option.bind_eq_bind, Option.bind_some, noteStaticChecked_backed backed]
    cases layoutOf (b.u 0 6) with
    | none => rfl
    | some layout =>
      dsimp only
      rw [positionChecked_backed backed]
      rfl

end

theorem byteLen_ascii {c : Char} (small : c.toNat < 0x80) : byteLen [c] = 1 := by
  rcases encode_cases c with ⟨_, bytes⟩ | ⟨big, _, _⟩ | ⟨big, _, _⟩ | ⟨big, _, _⟩
  · have size := congrArg List.length bytes
    rw [encode, List.length_map] at size
    rw [byteLen, encodeText, List.flatMap_singleton]
    exact size
  all_goals omega

theorem digitValue_ascii {c : Char} {d : Nat} (digit : digitValue c = some d) : byteLen [c] = 1 := by
  apply byteLen_ascii
  unfold digitValue at digit
  split at digit
  · rename_i inside
    have top : c.toNat ≤ '9'.toNat := inside.2
    exact Nat.lt_of_le_of_lt top (by decide)
  · split at digit
    · rename_i inside
      have top : c.toNat ≤ 'f'.toNat := inside.2
      exact Nat.lt_of_le_of_lt top (by decide)
    · split at digit
      · rename_i inside
        have top : c.toNat ≤ 'F'.toNat := inside.2
        exact Nat.lt_of_le_of_lt top (by decide)
      · cases digit

theorem parseDigits_ascii {radix value n : Nat} {text : Text} (read : parseDigits radix value text = some n) :
    ∀ c ∈ text, byteLen [c] = 1 := by
  induction text generalizing value with
  | nil =>
    intro c member
    cases member
  | cons d text ih =>
    rw [parseDigits] at read
    split at read
    · cases read
    · rename_i digit
      split at read
      · exact List.forall_mem_cons.mpr ⟨digitValue_ascii digit, ih read⟩
      · cases read

theorem parseU8_ascii {radix n : Nat} {text : Text} (read : parseU8 radix text = some n) : ∀ c ∈ text, byteLen [c] = 1 := by
  obtain ⟨whole, _⟩ := Option.filter_eq_some_iff.mp read
  unfold parseUsize at whole
  split at whole
  · cases whole
  · obtain ⟨digits, _⟩ := Option.filter_eq_some_iff.mp whole
    have plain := parseDigits_ascii digits
    unfold dropPlus at plain
    split at plain
    · exact List.forall_mem_cons.mpr ⟨byteLen_ascii (by decide), plain⟩
    · exact plain

theorem byteLen_plain {text : Text} (plain : ∀ c ∈ text, byteLen [c] = 1) : byteLen text = text.length := by
  induction text with
  | nil => rfl
  | cons c text ih =>
    rw [List.forall_mem_cons] at plain
    rw [byteLen_cons, plain.1, ih plain.2, List.length_cons, Nat.add_comm]

/-- Two bytes read as a number are two characters: no longer character is a digit. -/
theorem two_digits (text : Text) : (sliceTo text 2).bind (parseU8 16) =
    if text.length < 2 then none else parseU8 16 (text.take 2) := by
  ext n
  constructor
  · intro read
    obtain ⟨front, found, number⟩ := Option.bind_eq_some_iff.mp read
    obtain ⟨⟨front, back⟩, there, rfl⟩ := Option.map_eq_some_iff.mp found
    obtain ⟨rfl, size⟩ := cut_parts there
    have two : front.length = 2 := (byteLen_plain (parseU8_ascii number)).symm.trans size
    have long : ¬ (front ++ back).length < 2 := by
      rw [List.length_append]
      omega
    rw [if_neg long, ← two, List.take_left]
    exact number
  · intro read
    split at read
    · cases read
    · rename_i long
      have size := byteLen_plain (parseU8_ascii read)
      rw [List.length_take, Nat.min_eq_left (by omega)] at size
      have found := sliceTo_append (text.take 2) (text.drop 2)
      rw [List.take_append_drop, size] at found
      rw [found]
      exact read

theorem stripTagBlockChecked_eq (s : Text) : stripTagBlockChecked s = some (stripTagBlock s) := by
  match s with
  | [] => rfl
  | c :: rest =>
    by_cases tagged : c = '\\'
    · subst tagged
      simp only [stripTagBlockChecked, stripTagBlock]
      by_cases closed : '\\' ∈ rest
      · obtain ⟨block, after, rfl, absent⟩ := List.eq_append_cons_of_mem closed
        have behind : byteLen block + 1 = byteLen (block ++ ['\\']) := by
          rw [byteLen_append, byteLen_ascii (by decide)]
        rw [find_of_not_mem absent, HttpProof.splitOnce_of_not_mem absent]
        dsimp only
        rw [behind, List.append_cons, sliceFrom_append]
      · rw [find_eq_none closed]
        cases found : splitOnce '\\' rest with
        | none => rfl
        | some parts =>
          have place := HttpProof.splitOnce_parts found
          rw [place] at closed
          exact absurd (List.mem_append_right _ List.mem_cons_self) closed
    · simp [stripTagBlockChecked, stripTagBlock, tagged]

/-- What both readers of a sentence ask of its first character. -/
theorem starts_ascii {s : Text} (starts : (s.head? == some '!' || s.head? == some '$') = true) :
    ∃ c rest, s = c :: rest ∧ byteLen [c] = 1 ∧ c ≠ '*' := by
  cases s with
  | nil => cases starts
  | cons c rest =>
    rw [List.head?_cons, Bool.or_eq_true, beq_iff_eq, beq_iff_eq] at starts
    refine ⟨c, rest, rfl, ?_⟩
    rcases starts with same | same <;> cases same
    · exact ⟨byteLen_ascii (by decide), by decide⟩
    · exact ⟨byteLen_ascii (by decide), by decide⟩

theorem rfindStar_of_not_mem {after : Text} (absent : '*' ∉ after) (before : Text) :
    rfindStar (before ++ '*' :: after) = some (before, after) := by
  have back : (before ++ '*' :: after).reverse = after.reverse ++ '*' :: before.reverse := by simp
  rw [rfindStar, back, HttpProof.splitOnce_of_not_mem (by rwa [List.mem_reverse])]
  simp

theorem rfindStar_eq_none {s : Text} (absent : '*' ∉ s) : rfindStar s = none := by
  rw [rfindStar, Option.map_eq_none_iff]
  cases found : splitOnce '*' s.reverse with
  | none => rfl
  | some parts =>
    have place := HttpProof.splitOnce_parts found
    have inside : '*' ∈ s.reverse := by
      rw [place]
      exact List.mem_append_right _ List.mem_cons_self
    exact absurd (List.mem_reverse.mp inside) absent

theorem last_star {s : Text} (member : '*' ∈ s) : ∃ before after, s = before ++ '*' :: after ∧ '*' ∉ after := by
  obtain ⟨after, before, same, absent⟩ := List.eq_append_cons_of_mem (List.mem_reverse.mpr member)
  refine ⟨before.reverse, after.reverse, ?_, by rwa [List.mem_reverse]⟩
  rw [← List.reverse_reverse s, same]
  simp

theorem verifyChecksumChecked_eq {s : Text} (starts : (s.head? == some '!' || s.head? == some '$') = true) :
    verifyChecksumChecked s = some (verifyChecksum s) := by
  by_cases member : '*' ∈ s
  · obtain ⟨before, after, rfl, absent⟩ := last_star member
    obtain ⟨c, rest, same, one, other⟩ := starts_ascii starts
    -- the first character is not the star, so the body lies between the two
    obtain ⟨body, rfl⟩ : ∃ body, before = c :: body := by
      cases before with
      | nil =>
        cases same
        exact absurd rfl other
      | cons d body =>
        cases same
        exact ⟨body, rfl⟩
    have star : byteLen (c :: body) + 1 = byteLen (c :: body ++ ['*']) := by
      rw [byteLen_append, byteLen_ascii (c := '*') (by decide)]
    have given : slice (c :: body ++ '*' :: after) (byteLen (c :: body) + 1) (byteLen (c :: body) + 3) =
        sliceTo after 2 := by
      have end' : byteLen (c :: body) + 3 = byteLen (c :: body ++ ['*']) + 2 := by omega
      rw [end', star, List.append_cons, slice_behind]
    have inner : slice (c :: body ++ '*' :: after) 1 (byteLen (c :: body)) = some body := by
      have front := slice_behind [c] (body ++ '*' :: after) (byteLen body)
      rw [one, sliceTo_append] at front
      rw [byteLen_cons, one]
      exact front
    have digits := two_digits after
    rw [verifyChecksumChecked, rfind_of_not_mem absent, verifyChecksum, rfindStar_of_not_mem absent]
    dsimp only
    rw [given, inner]
    by_cases short : after.length < 2
    · rw [if_pos short] at digits ⊢
      cases found : sliceTo after 2 with
      | none => rfl
      | some front =>
        rw [found, Option.bind_some] at digits
        dsimp only
        rw [digits]
    · rw [if_neg short] at digits ⊢
      rw [← digits]
      cases found : sliceTo after 2 with
      | none => rfl
      | some front =>
        rw [Option.bind_some]
        dsimp only
        cases parseU8 16 front <;> rfl
  · rw [verifyChecksumChecked, rfind_eq_none member, verifyChecksum, rfindStar_eq_none member]

theorem splitFieldsChecked_eq {s : Text} (starts : (s.head? == some '!' || s.head? == some '$') = true) :
    splitFieldsChecked s = some (splitFields s) := by
  obtain ⟨c, rest, rfl, one, other⟩ := starts_ascii starts
  have stop : (find '*' (c :: rest)).getD (byteLen (c :: rest)) =
      byteLen [c] + (find '*' rest).getD (byteLen rest) := by
    rw [find, if_neg other, byteLen_cons c rest]
    cases find '*' rest <;> rfl
  have body := slice_behind [c] rest ((find '*' rest).getD (byteLen rest))
  rw [sliceTo_find, ← stop, one] at body
  rw [splitFieldsChecked]
  exact congrArg (fun body => body.map fun text => text.splitOn ',') body

theorem endsWith_long {suffix talker : Text} (ends : endsWith suffix talker = true) : suffix.length ≤ talker.length :=
  (List.isSuffixOf_iff_suffix.mp ends).length_le

theorem named_long {talker : Text} (named : (endsWith "TTM".toList talker || endsWith "GGA".toList talker ||
    endsWith "RMC".toList talker) = true) : 3 ≤ talker.length := by
  rw [Bool.or_eq_true, Bool.or_eq_true] at named
  rcases named with (ends | ends) | ends <;> exact endsWith_long ends

theorem radarWantsChecked_eq {s : Text} (starts : (s.head? == some '!' || s.head? == some '$') = true) :
    radarWantsChecked s = some (radarWants s) := by
  obtain ⟨c, rest, rfl, one, other⟩ := starts_ascii starts
  have sentence : sliceFrom (c :: rest) 1 = some rest := by
    rw [← one]
    exact sliceFrom_append [c] rest
  rw [radarWantsChecked, sentence]
  simp only [Option.bind_eq_bind, Option.bind_some, sliceTo_find]
  rw [radarWants, splitFields, List.tail_cons]
  generalize ((rest.takeWhile (· != '*')).splitOn ',').headD [] = talker
  cases named : endsWith "TTM".toList talker || endsWith "GGA".toList talker || endsWith "RMC".toList talker with
  | false => rw [Bool.and_false, Bool.and_false]
  | true =>
    have long : 3 ≤ talker.length := named_long named
    have bytes := length_le_byteLen talker
    rw [decide_eq_true long, decide_eq_true (Nat.le_trans long bytes)]

theorem readSentenceChecked_eq (frame : Bytes) : readSentenceChecked frame = some (readSentence frame) := by
  unfold readSentenceChecked readSentence
  cases Utf8.decode frame with
  | none => rfl
  | some text =>
    simp only [stripTagBlockChecked_eq, Option.bind_eq_bind, Option.bind_some]
    cases starts : (stripTagBlock (trimText text)).head? == some '!' || (stripTagBlock (trimText text)).head? == some '$' with
    | false => rfl
    | true =>
      rw [verifyChecksumChecked_eq starts, splitFieldsChecked_eq starts]
      cases verifyChecksum (stripTagBlock (trimText text)) with
      | error e => rfl
      | ok _ =>
        have filled : splitFields (stripTagBlock (trimText text)) ≠ [] := List.splitOn_ne_nil ',' _
        obtain ⟨talker, rest, fields⟩ := List.exists_cons_of_ne_nil filled
        rw [fields]
        simp only [Bool.not_true, Bool.false_eq_true, if_false, Option.bind_some, List.getElem?_cons_zero]
        cases endsWith "VDM".toList talker || endsWith "VDO".toList talker with
        | false => rfl
        | true =>
          rcases rest with _ | ⟨count, _ | ⟨num, _ | ⟨seq, _ | ⟨channel, _ | ⟨payload, _ | ⟨fill, more⟩⟩⟩⟩⟩⟩
          -- Fewer than seven fields.
          iterate 6 rfl
          have long : ¬ (talker :: count :: num :: seq :: channel :: payload :: fill :: more).length < 7 := by simp
          simp only [Bool.not_true, Bool.false_eq_true, if_false, if_neg long, List.getElem?_cons_zero,
            List.getElem?_cons_succ, Option.bind_some]
          cases parseU8 10 count with
          | none => rfl
          | some fragCount => cases parseU8 10 num with
            | none => rfl
            | some fragNum =>
              dsimp only
              split <;> rfl

theorem radarSentenceChecked_eq (frame : Bytes) : radarSentenceChecked frame = some (radarSentence frame) := by
  unfold radarSentenceChecked radarSentence
  cases Utf8.decode frame with
  | none => rfl
  | some text =>
    simp only [stripTagBlockChecked_eq, Option.bind_eq_bind, Option.bind_some, Option.map_some]
    cases starts : (stripTagBlock (trimText text)).head? == some '$' || (stripTagBlock (trimText text)).head? == some '!' with
    | false => simp [Option.filter, starts]
    | true =>
      have either := starts
      rw [Bool.or_comm] at either
      simp [Option.filter, starts, radarWantsChecked_eq either]

theorem receive_backed {q q' : Reassembly} {now : Nat} {s : Sentence} {bits : AisModel.Bits} {raws : List Bytes}
    (received : receive q now s = (.ok (some (bits, raws)), q')) : Backed bits := by
  have mapped : ∀ {payload : Text} {fill : Nat} {all : List Bytes},
      (Bits.fromPayload payload fill).map (fun bits => some (bits, all)) = .ok (some (bits, raws)) → Backed bits := by
    intro payload fill all made
    cases read : Bits.fromPayload payload fill with
    | error e =>
      rw [read] at made
      cases made
    | ok b =>
      rw [read] at made
      cases made
      exact fromPayload_backed read
  unfold receive at received
  split at received
  · exact mapped (Prod.mk.injEq _ _ _ _ ▸ received).1
  · split at received
    · cases received
    · dsimp only at received
      split at received
      · cases received
      · exact mapped (Prod.mk.injEq _ _ _ _ ▸ received).1

theorem parseSentenceChecked_eq {ρ : Type} {floats : Floats} (p : Parser ρ) (now : Nat) (frame : Bytes) :
    p.parseSentenceChecked floats now frame = some (p.parseSentence floats now frame) := by
  rw [Parser.parseSentenceChecked, readSentenceChecked_eq, Parser.parseSentence]
  cases readSentence frame with
  | error e => rfl
  | ok found => cases found with
    | none => rfl
    | some s =>
      simp only [Option.bind_eq_bind, Option.bind_some]
      rcases received : receive p.pending now s with ⟨e | ⟨_ | ⟨bits, raws⟩⟩, q⟩
      · rfl
      · rfl
      · exact decodeChecked_backed (receive_backed received) _ raws

end AisProof
