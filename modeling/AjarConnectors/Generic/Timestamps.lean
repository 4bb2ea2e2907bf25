import AjarConnectors.Builder.Instants
import AjarConnectors.Generic.Parser

namespace GenericModel

/-- At least one decimal digit, and the number they make. -/
def Digits (digits : List Char) (n : Nat) : Prop :=
  digits ≠ [] ∧ (∀ c ∈ digits, '0' ≤ c ∧ c ≤ '9') ∧ n = digits.foldl (fun value c => value * 10 + (c.toNat - 48)) 0

/-- The integer that a text spells. -/
inductive Spells : List Char → Int → Prop where
  | plain {digits n} : Digits digits n → Spells digits n
  | plus {digits n} : Digits digits n → Spells ('+' :: digits) n
  | minus {digits n} : Digits digits n → Spells ('-' :: digits) (-(n : Int))

/-- 1970-01-01 in the seconds of `Rfc3339.Stamp.instant`. -/
def unixEpoch : ℚ := 719528 * 86400

/-- The text is the time stamp of an instant, in nanoseconds since 1970. -/
def Denotes (text : String) (nanos : Int) : Prop :=
  ∃ stamp : Rfc3339.Stamp, stamp.text = text.toList ∧ stamp.instant = unixEpoch + nanos / 10^9

/-- What the time crate documents of its calls: they give the instant they are asked for, and print it. -/
structure TimeCrate.Correct {DateTime : Type} (time : TimeCrate DateTime) (instant : DateTime → Int) : Prop where
  nanos : ∀ n dt, time.fromUnixTimestampNanos n = .ok dt → instant dt = n
  seconds : ∀ s dt, time.fromUnixTimestamp s = .ok dt → instant dt = s * 10^9
  format : ∀ dt text, time.formatRfc3339 dt = .ok text → Denotes text (instant dt)

/-- The nanoseconds in one unit of an epoch format. -/
def TimestampFormat.unit : TimestampFormat → Int
  | .epochMillis => 10^6
  | .epochSeconds => 10^9
  | .rfc3339 => 0

/-- No panic, and an error or the instant that the string spells. -/
def Exact {DateTime : Type} (platform : Platform DateTime) (profile : Profile) (raw : String) (format : TimestampFormat) :
    Prop :=
  ∃ result, toRfc3339 platform profile raw format = some result ∧
    ∀ text, result = .ok text → ∃ n, Spells raw.toList n ∧ Denotes text (n * format.unit)

end GenericModel

namespace GenericProof

open GenericModel

/-- One step of the digit loop. -/
theorem parseDigits_cons (value : Nat) (c : Char) (rest : List Char) :
    HttpModel.parseDigits 10 value (c :: rest) =
      if '0' ≤ c ∧ c ≤ '9' then HttpModel.parseDigits 10 (value * 10 + (c.toNat - 48)) rest else none := by
  rw [HttpModel.parseDigits, HttpModel.digitValue]
  by_cases decimal : '0' ≤ c ∧ c ≤ '9'
  · rw [if_pos decimal, if_pos decimal]
    have most : c.toNat ≤ 57 := decimal.2
    exact if_pos (by omega)
  · rw [if_neg decimal, if_neg decimal]
    by_cases lower : 'a' ≤ c ∧ c ≤ 'f'
    · have least : 97 ≤ c.toNat := lower.1
      rw [if_pos lower]
      exact if_neg (by omega)
    · rw [if_neg lower]
      by_cases upper : 'A' ≤ c ∧ c ≤ 'F'
      · have least : 65 ≤ c.toNat := upper.1
        rw [if_pos upper]
        exact if_neg (by omega)
      · rw [if_neg upper]

theorem parseDigits_iff (digits : List Char) (value n : Nat) : HttpModel.parseDigits 10 value digits = some n ↔
    (∀ c ∈ digits, '0' ≤ c ∧ c ≤ '9') ∧ n = digits.foldl (fun value c => value * 10 + (c.toNat - 48)) value := by
  induction digits generalizing value with
  | nil =>
    rw [HttpModel.parseDigits, Option.some.injEq, List.foldl_nil, eq_comm]
    exact ⟨fun same => ⟨fun _ member => absurd member List.not_mem_nil, same⟩, fun both => both.2⟩
  | cons c digits ih =>
    rw [parseDigits_cons, List.foldl_cons, List.forall_mem_cons]
    by_cases decimal : '0' ≤ c ∧ c ≤ '9'
    · rw [if_pos decimal, ih]
      simp only [decimal, and_self, true_and]
    · rw [if_neg decimal]
      exact ⟨fun none => absurd none (by simp), fun both => absurd both.1.1 decimal⟩

theorem decimal_iff (digits : List Char) (n : Nat) : decimal digits = some n ↔ Digits digits n := by
  rw [decimal, Digits]
  by_cases empty : digits = []
  · simp [empty]
  · rw [if_neg empty, parseDigits_iff]
    exact ⟨fun both => ⟨empty, both⟩, fun all => all.2⟩

theorem not_digits_sign {c : Char} {digits : List Char} {n : Nat} (sign : ¬('0' ≤ c ∧ c ≤ '9')) : ¬Digits (c :: digits) n :=
  fun all => sign (all.2.1 c List.mem_cons_self)

theorem signed_iff (text : List Char) (n : Int) : signed text = some n ↔ Spells text n := by
  by_cases minus : ∃ digits, text = '-' :: digits
  · obtain ⟨digits, rfl⟩ := minus
    rw [signed, Option.map_eq_some_iff]
    constructor
    · rintro ⟨size, found, rfl⟩
      exact .minus ((decimal_iff digits size).mp found)
    · intro spells
      cases spells with
      | plain all => exact absurd all (not_digits_sign (by decide))
      | minus all => exact ⟨_, (decimal_iff digits _).mpr all, rfl⟩
  · have unsigned : signed text = (decimal (HttpModel.dropPlus text)).map fun n : Nat => (n : Int) := by
      rw [signed]
      exact fun digits same => minus ⟨digits, same⟩
    rw [unsigned, Option.map_eq_some_iff]
    by_cases plus : ∃ digits, text = '+' :: digits
    · obtain ⟨digits, rfl⟩ := plus
      rw [HttpModel.dropPlus]
      constructor
      · rintro ⟨size, found, rfl⟩
        exact .plus ((decimal_iff digits size).mp found)
      · intro spells
        cases spells with
        | plain all => exact absurd all (not_digits_sign (by decide))
        | plus all => exact ⟨_, (decimal_iff digits _).mpr all, rfl⟩
    · have bare : HttpModel.dropPlus text = text := by
        rw [HttpModel.dropPlus]
        exact fun digits same => plus ⟨digits, same⟩
      rw [bare]
      constructor
      · rintro ⟨size, found, rfl⟩
        exact .plain ((decimal_iff text size).mp found)
      · intro spells
        cases spells with
        | plain all => exact ⟨_, (decimal_iff text _).mpr all, rfl⟩
        | plus all => exact absurd ⟨_, rfl⟩ plus
        | minus all => exact absurd ⟨_, rfl⟩ minus

/-- A number is parsed exactly where the text spells one that fits. -/
theorem parseInt_iff (bits : Nat) (raw : String) (n : Int) : parseInt bits raw = some n ↔ Spells raw.toList n ∧ Fits bits n := by
  rw [parseInt, Option.filter_eq_some_iff, signed_iff, decide_eq_true_eq]

section

variable {DateTime : Type} {platform : Platform DateTime} {instant : DateTime → Int}

theorem formatted_denotes (correct : platform.time.Correct instant) {dt : Except String DateTime} {n : Int}
    (made : ∀ made, dt = .ok made → instant made = n) {text : String} (ok : formatted platform dt = .ok text) :
    Denotes text n := by
  cases dt with
  | error e => cases ok
  | ok dt =>
    rw [formatted] at ok
    cases printed : platform.time.formatRfc3339 dt with
    | error e =>
      rw [printed] at ok
      cases ok
    | ok found =>
      rw [printed] at ok
      cases ok
      rw [← made dt rfl]
      exact correct.format dt text printed

theorem exact_unparsed (profile : Profile) {raw : String} {format : TimestampFormat} {e : GenericError}
    (refused : toRfc3339 platform profile raw format = some (.error e)) : Exact platform profile raw format :=
  ⟨_, refused, fun _ ok => by cases ok⟩

theorem exact_seconds (correct : platform.time.Correct instant) (profile : Profile) (raw : String) :
    Exact platform profile raw .epochSeconds := by
  cases parsed : parseInt 64 raw with
  | none =>
    apply exact_unparsed
    rw [toRfc3339, parsed]
  | some s =>
    refine ⟨formatted platform (platform.time.fromUnixTimestamp s), by rw [toRfc3339, parsed], ?_⟩
    intro text ok
    exact ⟨s, ((parseInt_iff 64 raw s).mp parsed).1, formatted_denotes correct (correct.seconds s) ok⟩

theorem exact_millis (correct : platform.time.Correct instant) (profile : Profile) {raw : String}
    (fits : ∀ ms, Spells raw.toList ms → Fits 128 ms → Fits 128 (ms * 1000000)) :
    Exact platform profile raw .epochMillis := by
  cases parsed : parseInt 128 raw with
  | none =>
    apply exact_unparsed
    rw [toRfc3339, parsed]
  | some ms =>
    obtain ⟨spells, small⟩ := (parseInt_iff 128 raw ms).mp parsed
    have product : mulI128 profile ms 1000000 = some (ms * 1000000) := if_pos (fits ms spells small)
    refine ⟨formatted platform (platform.time.fromUnixTimestampNanos (ms * 1000000)), ?_, ?_⟩
    · rw [toRfc3339, parsed]
      simp only [product, Option.map_some]
    · intro text ok
      exact ⟨ms, spells, formatted_denotes correct (correct.nanos _) ok⟩

theorem overflow_panics {raw : String} {ms : Int} (spells : Spells raw.toList ms) (small : Fits 128 ms)
    (large : ¬Fits 128 (ms * 1000000)) : toRfc3339 platform .debug raw .epochMillis = none := by
  have product : mulI128 .debug ms 1000000 = none := if_neg large
  rw [toRfc3339, (parseInt_iff 128 raw ms).mpr ⟨spells, small⟩]
  simp only [product, Option.map_none]

/-- Where the product wraps instead, whatever is printed is another instant. -/
theorem overflow_wraps (correct : platform.time.Correct instant) {raw : String} {ms : Int} (spells : Spells raw.toList ms)
    (small : Fits 128 ms) (large : ¬Fits 128 (ms * 1000000)) {text : String}
    (ok : toRfc3339 platform .release raw .epochMillis = some (.ok text)) : ∃ n, n ≠ ms * 1000000 ∧ Denotes text n := by
  have product : mulI128 .release ms 1000000 = some ((ms * 1000000).bmod (2^128)) := if_neg large
  rw [toRfc3339, (parseInt_iff 128 raw ms).mpr ⟨spells, small⟩] at ok
  simp only [product, Option.map_some, Option.some.injEq] at ok
  refine ⟨_, ?_, formatted_denotes correct (correct.nanos _) ok⟩
  intro same
  apply large
  rw [← same]
  exact ⟨Int.le_bmod (by decide), Int.bmod_lt (by decide)⟩

end

/-- Epoch time stamps are exact, and nothing overflows, exactly when a number of milliseconds that fits 128 bits still fits
    in nanoseconds. -/
theorem epoch_exact_iff {DateTime : Type} (platform : Platform DateTime) (instant : DateTime → Int)
    (correct : platform.time.Correct instant) (raw : String) (format : TimestampFormat) (epoch : format ≠ .rfc3339) :
    (∀ profile, Exact platform profile raw format) ↔
      (format = .epochMillis → ∀ ms, Spells raw.toList ms → Fits 128 ms → Fits 128 (ms * 1000000)) := by
  cases format with
  | rfc3339 => exact absurd rfl epoch
  | epochSeconds =>
    constructor
    · rintro - ⟨⟩
    · exact fun _ profile => exact_seconds correct profile raw
  | epochMillis =>
    constructor
    · intro all _ ms spells small
      by_contra large
      obtain ⟨result, found, -⟩ := all .debug
      rw [overflow_panics spells small large] at found
      cases found
    · exact fun fits profile => exact_millis correct profile (fits rfl)

/-- A time crate that knows of two instants. -/
def twoInstants : TimeCrate Int where
  fromUnixTimestampNanos n := if n = 0 ∨ n = -1000000 then .ok n else .error "out of range"
  fromUnixTimestamp s := if s = 0 then .ok 0 else .error "out of range"
  formatRfc3339 n :=
    if n = 0 then .ok "1970-01-01T00:00:00Z"
    else if n = -1000000 then .ok "1969-12-31T23:59:59.999Z"
    else .error "out of range"

theorem utc_letter : 'Z' = 'Z' ∨ 'Z' = 'z' := Or.inl rfl

theorem date_mark : 'T' = 'T' ∨ 'T' = 't' := Or.inl rfl

theorem minute_zero : 0 ≤ 59 := by decide

theorem second_zero : 0 ≤ 60 := by decide

def newYear : Rfc3339.Stamp where
  date := ⟨1970, 1, 1, by decide, by decide, by decide⟩
  separator := 'T'
  time := ⟨0, 0, 0, by decide, minute_zero, second_zero⟩
  fraction := none
  zone := .utc 'Z' utc_letter
  separated := date_mark

def newYearsEve : Rfc3339.Stamp where
  date := ⟨1969, 12, 31, by decide, by decide, by decide⟩
  separator := 'T'
  time := ⟨23, 59, 59, by decide, by decide, by decide⟩
  fraction := some ⟨[9, 9, 9], by decide, by decide⟩
  zone := .utc 'Z' utc_letter
  separated := date_mark

theorem twoInstants_correct : twoInstants.Correct id := by
  constructor
  · intro n dt made
    change (if n = 0 ∨ n = -1000000 then Except.ok n else .error "out of range") = .ok dt at made
    split at made
    · cases made
      rfl
    · cases made
  · intro s dt made
    change (if s = 0 then Except.ok 0 else .error "out of range") = .ok dt at made
    split at made
    · rename_i zero
      cases made
      rw [zero]
      rfl
    · cases made
  · intro dt text made
    change (if dt = 0 then Except.ok "1970-01-01T00:00:00Z" else if dt = -1000000 then .ok "1969-12-31T23:59:59.999Z"
      else .error "out of range") = .ok text at made
    split at made
    · rename_i zero
      cases made
      refine ⟨newYear, by decide, ?_⟩
      rw [zero]
      decide +kernel
    · split at made
      · rename_i eve
        cases made
        refine ⟨newYearsEve, by decide, ?_⟩
        rw [eve]
        decide +kernel
      · cases made

def clockPlatform : Platform Int where
  floats := .idle
  time := twoInstants
  fromJson _ := .error ""
  debug raw := raw

theorem zero_is_exact :
    (∀ profile, Exact clockPlatform profile "0" .epochMillis) ↔
      ((TimestampFormat.epochMillis = .epochMillis) → ∀ ms, Spells "0".toList ms → Fits 128 ms → Fits 128 (ms * 1000000)) :=
  epoch_exact_iff clockPlatform id twoInstants_correct "0" .epochMillis (by decide)

example : toRfc3339 clockPlatform .release "170141183460469231731687303715884105727" .epochMillis =
    some (.ok "1969-12-31T23:59:59.999Z") := by decide

/-- The largest `i128` of milliseconds. -/
theorem largest_millis_overflow :
    ¬∀ (raw : String) (format : TimestampFormat), format ≠ .rfc3339 → ∀ profile, Exact clockPlatform profile raw format := by
  intro law
  obtain ⟨result, found, -⟩ := law "170141183460469231731687303715884105727" .epochMillis (by decide) .debug
  have panics : toRfc3339 clockPlatform .debug "170141183460469231731687303715884105727" .epochMillis = none := by decide
  rw [panics] at found
  cases found

end GenericProof
