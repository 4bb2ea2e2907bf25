import AjarConnectors.Ais.Checked

namespace AisModel

open EventModel HttpModel Utf8

/-- A character of the value stands across the place two bytes before its point, or before its end. -/
def CutsInside (value : Text) : Prop :=
  3 ≤ byteLen (trimText value) ∧
    Straddles (trimText value) (byteLen ((trimText value).takeWhile (· != '.')) - 2)

/-- The same of the latitude or longitude of a GGA or RMC sentence with a valid fix. -/
def CutsCoordinate (f : List Text) : Prop :=
  7 ≤ f.length ∧
    if endsWith "GGA".toList (f.getD 0 []) then f.getD 6 [] ≠ ['0'] ∧ (CutsInside (f.getD 2 []) ∨ CutsInside (f.getD 4 []))
    else endsWith "RMC".toList (f.getD 0 []) = true ∧ f.getD 2 [] = ['A'] ∧
      (CutsInside (f.getD 3 []) ∨ CutsInside (f.getD 5 []))

/-- The frame holds such a sentence under a correct checksum. -/
def CutsFrame (frame : Bytes) : Prop :=
  ∃ s, radarSentence frame = some s ∧ verifyChecksum s = .ok () ∧ CutsCoordinate (splitFields s)

/-- `parse` comes to an end: no index is out of range, and no slice ends inside a character. -/
def Parser.Returns (floats : Sphere) (p : Parser TtmState) (a : Arrival) : Prop :=
  ∃ result, p.parseChecked floats a = some result

end AisModel

namespace AisProof

open EventModel HttpModel Utf8 AisModel

section

variable (floats : Sphere)

theorem minutesAt_eq (v : Text) : minutesAt v = byteLen (v.takeWhile (· != '.')) - 2 := by
  obtain ⟨⟨front, back⟩, there, same⟩ := Option.map_eq_some_iff.mp (sliceTo_find '.' v)
  have size := (cut_parts there).2
  rw [minutesAt, ← size, ← same]

theorem minutesAt_le (v : Text) : minutesAt v ≤ byteLen v := by
  have whole := congrArg byteLen (List.takeWhile_append_dropWhile (p := (· != '.')) (l := v))
  rw [byteLen_append] at whole
  rw [minutesAt_eq]
  omega

theorem cut_minutes (v : Text) : cut v (minutesAt v) = none ↔ Straddles v (byteLen (v.takeWhile (· != '.')) - 2) := by
  have inside := minutesAt_le v
  rw [cut_eq_none_iff, ← minutesAt_eq]
  apply or_iff_right
  omega

theorem parseCoord_panics_iff (value hemi : Text) :
    parseCoord floats (some value) (some hemi) = none ↔ CutsInside value := by
  rw [CutsInside, ← cut_minutes, parseCoord]
  dsimp only
  split
  · rename_i short
    exact iff_of_false (Option.some_ne_none _) fun cuts => absurd cuts.1 (by omega)
  · rename_i long
    rw [and_iff_right (Nat.not_lt.mp long), sliceTo, sliceFrom]
    cases cut (trimText value) (minutesAt (trimText value)) with
    | none => exact iff_of_true rfl rfl
    | some parts =>
      refine iff_of_false ?_ (Option.some_ne_none _)
      rw [Option.map_some, Option.map_some]
      dsimp only
      cases parseF64 floats parts.1 with
      | none => exact Option.some_ne_none _
      | some degrees => cases parseF64 floats parts.2 with
        | none => exact Option.some_ne_none _
        | some minutes =>
          dsimp only
          split
          · exact Option.some_ne_none _
          · split <;> exact Option.some_ne_none _

theorem noteFix_panics_iff (s : TtmState) (now : Nat) {f : List Text} (valid : Bool) {latAt : Nat}
    (inside : latAt + 3 < f.length) : s.noteFix floats now f valid latAt = none ↔
      valid = true ∧ (CutsInside (f.getD latAt []) ∨ CutsInside (f.getD (latAt + 2) [])) := by
  have lat := parseCoord_panics_iff floats (f.getD latAt []) (f.getD (latAt + 1) [])
  have lon := parseCoord_panics_iff floats (f.getD (latAt + 2) []) (f.getD (latAt + 3) [])
  have field : ∀ i ≤ 3, f[latAt + i]? = some (f.getD (latAt + i) []) := fun i _ => Partial.index_inside [] (by omega)
  rw [TtmState.noteFix, field 1 (by decide), field 2 (by decide), field 3 (by decide), Partial.index_inside [] (by omega),
    ← lat, ← lon]
  cases valid with
  | false => exact iff_of_false (Option.some_ne_none _) fun both => absurd both.1 (by decide)
  | true =>
    rw [if_pos rfl, and_iff_right rfl]
    cases parseCoord floats (some (f.getD latAt [])) (some (f.getD (latAt + 1) [])) with
    | none => exact iff_of_true rfl (Or.inl rfl)
    | some lat => cases parseCoord floats (some (f.getD (latAt + 2) [])) (some (f.getD (latAt + 3) [])) with
      | none => exact iff_of_true rfl (Or.inr rfl)
      | some lon =>
        refine iff_of_false ?_ fun either => either.elim (Option.some_ne_none _) (Option.some_ne_none _)
        cases lat with
        | none => exact Option.some_ne_none _
        | some lat => cases lon <;> exact Option.some_ne_none _

/-- Thirteen fields are enough for every field that a TTM sentence is read for. -/
theorem decodeTtm_returns (s : TtmState) (now : Nat) (f : List Text) (raw : Bytes) :
    s.decodeTtm floats now f raw ≠ none := by
  rw [TtmState.decodeTtm]
  split
  · exact Option.some_ne_none _
  · rename_i long
    have field : ∀ i < 13, f[i]? = some (f.getD i []) := fun i _ => Partial.index_inside [] (by omega)
    simp only [field 1 (by omega), field 2 (by omega), field 3 (by omega), field 4 (by omega), field 5 (by omega),
      field 6 (by omega), field 7 (by omega), field 8 (by omega), field 9 (by omega), field 12 (by omega),
      Option.bind_eq_bind, Option.bind_some]
    split
    · exact Option.some_ne_none _
    · split
      · exact Option.some_ne_none _
      · split
        · exact Option.some_ne_none _
        · split <;> exact Option.some_ne_none _

theorem handle_panics_iff (s : TtmState) (now : Nat) {f : List Text} (filled : f ≠ []) (raw : Bytes) :
    s.handle floats now f raw = none ↔ CutsCoordinate f := by
  obtain ⟨talker, rest, rfl⟩ := List.exists_cons_of_ne_nil filled
  rw [TtmState.handle, CutsCoordinate, List.getElem?_cons_zero, List.getD_cons_zero]
  simp only [Option.bind_eq_bind, Option.bind_some]
  split
  · split
    · rename_i long
      rw [Partial.index_inside [] long, Option.map_some, Option.bind_some,
        noteFix_panics_iff floats s now _ (by omega), bne_iff_ne, and_iff_right long]
    · rename_i short
      exact iff_of_false (Option.some_ne_none _) fun cuts => short cuts.1
  · split
    · rename_i named
      split
      · rename_i long
        rw [Partial.index_inside (i := 2) [] (by omega), Option.map_some, Option.bind_some,
          noteFix_panics_iff floats s now _ (by omega), beq_iff_eq, and_iff_right long, and_iff_right named]
      · rename_i short
        exact iff_of_false (Option.some_ne_none _) fun cuts => short cuts.1
    · rename_i other
      exact iff_of_false (decodeTtm_returns floats s now _ raw) fun cuts => other cuts.2.1

end

theorem radar_starts {frame : Bytes} {s : Text} (wanted : radarSentence frame = some s) :
    (s.head? == some '!' || s.head? == some '$') = true := by
  obtain ⟨_, both⟩ := Option.filter_eq_some_iff.mp wanted
  rw [Bool.and_eq_true] at both
  rw [Bool.or_comm]
  exact both.1

/-- `parse` panics where the radar does, and is elsewhere the parser over the radar that returns the same. -/
theorem parseChecked_cases (floats : Sphere) (p : Parser TtmState) (a : Arrival) :
    ((∃ s, radarSentence a.frame = some s ∧ verifyChecksum s = .ok () ∧
        p.radar.handle floats a.now (splitFields s) (encodeText s) = none) ∧ p.parseChecked floats a = none) ∨
    ((∀ s, radarSentence a.frame = some s → verifyChecksum s = .ok () →
        p.radar.handle floats a.now (splitFields s) (encodeText s) ≠ none) ∧
      p.parseChecked floats a = some (p.parse floats.toFloats (TtmState.radar floats a.now) a)) := by
  rw [Parser.parseChecked, Parser.parse, radarSentenceChecked_eq]
  simp only [Option.bind_eq_bind, Option.bind_some]
  cases wanted : radarSentence a.frame with
  | none =>
    dsimp only
    rw [parseSentenceChecked_eq]
    refine Or.inr ⟨?_, rfl⟩
    intro s read
    cases read
  | some s =>
    dsimp only
    rw [verifyChecksumChecked_eq (radar_starts wanted), splitFieldsChecked_eq (radar_starts wanted)]
    simp only [Option.bind_some]
    cases summed : verifyChecksum s with
    | error e =>
      refine Or.inr ⟨?_, rfl⟩
      intro s' read right
      cases read
      rw [summed] at right
      cases right
    | ok _ =>
      rw [TtmState.radar]
      dsimp only
      cases handled : p.radar.handle floats a.now (splitFields s) (encodeText s) with
      | none => exact Or.inl ⟨⟨s, rfl, summed, handled⟩, rfl⟩
      | some outcome =>
        refine Or.inr ⟨?_, ?_⟩
        · intro s' read _
          cases read
          rw [handled]
          exact Option.some_ne_none _
        · rw [Option.bind_some, Option.getD_some]
          obtain ⟨e | ⟨_ | target⟩, r⟩ := outcome
          · rfl
          · rfl
          · dsimp only
            cases BuilderModel.Rust.run p.sourceId "mim:object"
              (radarCalls floats.toFloats p.hostility a.id a.clock target) <;> rfl

/-- `parse` returns unless a coordinate is cut inside a character, whatever the state. -/
theorem parse_returns_iff (floats : Sphere) (p : Parser TtmState) (a : Arrival) :
    p.Returns floats a ↔ ¬ CutsFrame a.frame := by
  have panics : ∀ s, p.radar.handle floats a.now (splitFields s) (encodeText s) = none ↔ CutsCoordinate (splitFields s) :=
    fun s => handle_panics_iff floats p.radar a.now (List.splitOn_ne_nil ',' _) (encodeText s)
  unfold Parser.Returns CutsFrame
  rcases parseChecked_cases floats p a with ⟨⟨s, wanted, summed, stuck⟩, none⟩ | ⟨handles, returned⟩
  · rw [none]
    refine iff_of_false ?_ fun whole => whole ⟨s, wanted, summed, (panics s).mp stuck⟩
    rintro ⟨_, returns⟩
    cases returns
  · refine iff_of_true ⟨_, returned⟩ ?_
    rintro ⟨s, wanted, summed, cuts⟩
    exact handles s wanted summed ((panics s).mpr cuts)

/-- Where `parse` returns, it is the parser over the radar that returns the same. -/
theorem parse_returned {floats : Sphere} {p : Parser TtmState} {a : Arrival}
    {result : Except AisError (List Event) × Parser TtmState} (returned : p.parseChecked floats a = some result) :
    result = p.parse floats.toFloats (TtmState.radar floats a.now) a := by
  rcases parseChecked_cases floats p a with ⟨_, none⟩ | ⟨_, same⟩
  · rw [none] at returned
    cases returned
  · rw [same] at returned
    exact (Option.some.inj returned).symm

/-- `$GPGGA,,€.5,N,0,E,1*8B`: the split stands one byte into the euro sign. -/
def euroFix : Arrival :=
  ⟨[0x24, 0x47, 0x50, 0x47, 0x47, 0x41, 0x2c, 0x2c, 0xe2, 0x82, 0xac, 0x2e, 0x35, 0x2c, 0x4e, 0x2c, 0x30, 0x2c, 0x45,
    0x2c, 0x31, 0x2a, 0x38, 0x42], 0, "", ""⟩

theorem euro_fix_panics : ¬ ∀ (floats : Sphere) (p : Parser TtmState) (a : Arrival), p.Returns floats a := by
  intro all
  obtain ⟨result, returned⟩ := all .idle (Parser.new "" none ⟨none, none, 0⟩) euroFix
  have stuck : ((Parser.new "" none ⟨none, none, 0⟩).parseChecked .idle euroFix).isNone = true := by decide +kernel
  rw [returned] at stuck
  cases stuck

end AisProof
