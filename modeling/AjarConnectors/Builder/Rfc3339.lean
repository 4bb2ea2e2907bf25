import AjarConnectors.Builder.Languages

namespace Rfc3339

def digitChar (n : Nat) : Char := Char.ofNat (48 + n)

def twoDigits (n : Nat) : List Char := [digitChar (n / 10), digitChar (n % 10)]

inductive Zone where
  | utc (letter : Char) (isUtc : letter = 'Z' ∨ letter = 'z')
  | offset (sign : Char) (hour minute : Nat) (signed : sign = '+' ∨ sign = '-') (hourFits : hour ≤ 23)
    (minuteFits : minute ≤ 59)

def Zone.text : Zone → List Char
  | .utc letter _ => [letter]
  | .offset sign hour minute _ _ _ => sign :: (twoDigits hour ++ ':' :: twoDigits minute)

structure Date where
  year : Nat
  month : Nat
  day : Nat
  yearFits : year ≤ 9999
  monthFits : 1 ≤ month ∧ month ≤ 12
  dayFits : 1 ≤ day ∧ day ≤ 31

def Date.text (d : Date) : List Char :=
  twoDigits (d.year / 100) ++ twoDigits (d.year % 100) ++ '-' :: twoDigits d.month ++ '-' :: twoDigits d.day

structure Time where
  hour : Nat
  minute : Nat
  second : Nat
  hourFits : hour ≤ 23
  minuteFits : minute ≤ 59
  secondFits : second ≤ 60

def Time.text (t : Time) : List Char := twoDigits t.hour ++ ':' :: twoDigits t.minute ++ ':' :: twoDigits t.second

/-- Any number of digits, but at least one. -/
structure Fraction where
  digits : List Nat
  filled : digits ≠ []
  fits : ∀ d ∈ digits, d ≤ 9

def Fraction.text (f : Fraction) : List Char := '.' :: f.digits.map digitChar

structure Stamp where
  date : Date
  separator : Char
  time : Time
  fraction : Option Fraction
  zone : Zone
  separated : separator = 'T' ∨ separator = 't'

def Stamp.text (s : Stamp) : List Char :=
  s.date.text ++ s.separator :: s.time.text ++ (((s.fraction.map Fraction.text).getD []) ++ s.zone.text)

end Rfc3339

namespace BuilderModel.Rust

section Checked

variable (b : List Nat)

/-- One step of the fold in `num`, on bytes and `u32`. -/
def addDigit (a x : Nat) : Option Nat :=
  if x < 48 ∨ 2^32 ≤ a * 10 + (x - 48) then none else some (a * 10 + (x - 48))

def numChecked (i n : Nat) : Option Nat :=
  if b.length < i + n then none else ((b.drop i).take n).foldlM addDigit 0

/-- `&&` on the right of a comparison that may panic. -/
def andThen (first : Option Bool) (second : Option Bool) : Option Bool :=
  first.bind fun holds => if holds then second else some false

def inRange (i low high : Nat) : Option Bool := (numChecked b i 2).map fun n => low ≤ n && n ≤ high

def zoneChecked (i : Nat) : Option Bool :=
  if char b i 'Z' || char b i 'z' then some (i + 1 == b.length)
  else if char b i '+' || char b i '-' then
    if digits b (i + 1) 2 && char b (i + 3) ':' && digits b (i + 4) 2 && i + 6 == b.length then
      andThen (inRange b (i + 1) 0 23) (inRange b (i + 4) 0 59)
    else some false
  else some false

end Checked

/-- `is_rfc3339` with the steps that can panic: no result means that one did. -/
def isRfc3339Checked (s : String) : Option Bool :=
  let b := Utf8.bytes s
  if b.length < 20 then some false
  else if !(digits b 0 4 && char b 4 '-' && digits b 5 2 && char b 7 '-' && digits b 8 2 &&
      (char b 10 'T' || char b 10 't') && digits b 11 2 && char b 13 ':' && digits b 14 2 &&
      char b 16 ':' && digits b 17 2) then some false
  else andThen (andThen (inRange b 5 1 12) (andThen (inRange b 8 1 31)
      (andThen (inRange b 11 0 23) (andThen (inRange b 14 0 59) (inRange b 17 0 60)))))
    (match zoneStart b with
      | none => some false
      | some i => zoneChecked b i)

end BuilderModel.Rust

namespace BuilderProof

open BuilderModel BuilderModel.Rust Rfc3339

theorem digitChar_toNat : ∀ {n : Nat}, n ≤ 9 → (digitChar n).toNat = 48 + n := by decide

theorem twoDigits_toNat {n : Nat} (small : n ≤ 99) : (twoDigits n).map Char.toNat = [48 + n / 10, 48 + n % 10] := by
  rw [twoDigits, List.map_cons, List.map_cons, digitChar_toNat (by omega), digitChar_toNat (by omega), List.map_nil]

/-- Two digits are the number that the fold in `num` makes of them. -/
theorem twoDigits_of_isDigit {x y : Nat} (first : isDigit x = true) (second : isDigit y = true) :
    [x, y] = (twoDigits ((x - 48) * 10 + (y - 48))).map Char.toNat := by
  unfold isDigit at first second
  simp only [Bool.and_eq_true, decide_eq_true_eq] at first second
  rw [twoDigits_toNat (by omega)]
  congr 1
  · omega
  · congr 1
    omega

section Positions

variable (front b : List Nat)

theorem char_append (i : Nat) (c : Char) : char (front ++ b) (front.length + i) c = char b i c := by
  unfold char
  rw [List.getElem?_append_right (Nat.le_add_right _ _), Nat.add_sub_cancel_left]

theorem digits_append (i n : Nat) : digits (front ++ b) (front.length + i) n = digits b i n := by
  unfold digits digit
  congr 1
  funext k
  rw [Nat.add_assoc, List.getElem?_append_right (Nat.le_add_right _ _), Nat.add_sub_cancel_left]

theorem num_append (i n : Nat) : num (front ++ b) (front.length + i) n = num b i n := by
  unfold num
  rw [List.drop_length_add_append]

/-- A zone is read alike behind anything. -/
theorem zone_append : zone (front ++ b) front.length = zone b 0 := by
  have char0 := char_append front b 0
  have length : ∀ i, (front.length + i == (front ++ b).length) = (i == b.length) := by
    intro i
    rw [List.length_append, Bool.eq_iff_iff, beq_iff_eq, beq_iff_eq]
    omega
  unfold zone
  rw [Nat.add_zero] at char0
  simp only [char0, length, char_append, digits_append, num_append, Nat.zero_add]

end Positions

theorem isDigit_iff (x : Nat) : isDigit x = true ↔ 48 ≤ x ∧ x ≤ 57 := by
  unfold isDigit
  rw [Bool.and_eq_true, decide_eq_true_eq, decide_eq_true_eq]

theorem twoDigits_isDigit {n : Nat} (small : n ≤ 99) :
    isDigit (48 + n / 10) = true ∧ isDigit (48 + n % 10) = true ∧ (48 + n / 10 - 48) * 10 + (48 + n % 10 - 48) = n := by
  rw [isDigit_iff, isDigit_iff]
  omega

theorem zone_offset (sign h0 h1 colon m0 m1 : Nat) : zone [sign, h0, h1, colon, m0, m1] 0 = true ↔
    (sign = 43 ∨ sign = 45) ∧ isDigit h0 = true ∧ isDigit h1 = true ∧ colon = 58 ∧ isDigit m0 = true ∧ isDigit m1 = true ∧
      (h0 - 48) * 10 + (h1 - 48) ≤ 23 ∧ (m0 - 48) * 10 + (m1 - 48) ≤ 59 := by
  simp only [zone, char, digits, digit, num, List.range_succ, List.range_zero]
  simp
  grind

/-- What `zone` accepts is a zone and nothing behind it. -/
theorem zone_iff (z : List Nat) : zone z 0 = true ↔ ∃ place : Zone, z = place.text.map Char.toNat := by
  constructor
  · intro accepted
    have whole := accepted
    unfold zone at accepted
    split at accepted
    · rename_i letter
      have length : z.length = 1 := (eq_of_beq accepted).symm
      obtain ⟨x, rfl⟩ := List.length_eq_one_iff.mp length
      have letter : x = 90 ∨ x = 122 := by simpa [char] using letter
      rcases letter with rfl | rfl
      · exact ⟨.utc 'Z' (Or.inl rfl), rfl⟩
      · exact ⟨.utc 'z' (Or.inr rfl), rfl⟩
    · split at accepted
      · simp only [Bool.and_eq_true] at accepted
        have length : z.length = 6 := (eq_of_beq accepted.1.1.2).symm
        match z, length with
        | [sign, h0, h1, colon, m0, m1], _ =>
          obtain ⟨signed, h0Digit, h1Digit, rfl, m0Digit, m1Digit, hour, minute⟩ := (zone_offset _ _ _ _ _ _).mp whole
          have hours := twoDigits_of_isDigit h0Digit h1Digit
          have minutes := twoDigits_of_isDigit m0Digit m1Digit
          rcases signed with rfl | rfl
          · refine ⟨.offset '+' _ _ (Or.inl rfl) hour minute, ?_⟩
            rw [Zone.text, List.map_cons, List.map_append, List.map_cons, ← hours, ← minutes]
            rfl
          · refine ⟨.offset '-' _ _ (Or.inr rfl) hour minute, ?_⟩
            rw [Zone.text, List.map_cons, List.map_append, List.map_cons, ← hours, ← minutes]
            rfl
      · cases accepted
  · rintro ⟨place, rfl⟩
    cases place with
    | utc letter isUtc => rcases isUtc with rfl | rfl <;> rfl
    | offset sign hour minute signed hourFits minuteFits =>
      have hours := twoDigits_isDigit (n := hour) (by omega)
      have minutes := twoDigits_isDigit (n := minute) (by omega)
      rw [Zone.text, List.map_cons, List.map_append, List.map_cons, twoDigits_toNat (by omega), twoDigits_toNat (by omega)]
      apply (zone_offset _ _ _ _ _ _).mpr
      refine ⟨?_, hours.1, hours.2.1, rfl, minutes.1, minutes.2.1, by omega, by omega⟩
      rcases signed with rfl | rfl
      · exact Or.inl rfl
      · exact Or.inr rfl

/-- A zone begins neither with a digit nor with the point of a fraction. -/
theorem zone_head (place : Zone) : ∃ x rest, place.text.map Char.toNat = x :: rest ∧ isDigit x = false ∧ x ≠ 46 := by
  cases place with
  | utc letter isUtc => rcases isUtc with rfl | rfl <;> exact ⟨_, _, rfl, by decide, by decide⟩
  | offset sign hour minute signed => rcases signed with rfl | rfl <;> exact ⟨_, _, rfl, by decide, by decide⟩

theorem digits_toNat {digits : List Nat} (fits : ∀ d ∈ digits, d ≤ 9) :
    (digits.map digitChar).map Char.toNat = digits.map fun d => 48 + d := by
  rw [List.map_map]
  apply List.map_congr_left
  intro d member
  exact digitChar_toNat (fits d member)

theorem digits_of_isDigit {bytes : List Nat} (all : ∀ x ∈ bytes, isDigit x = true) :
    ∃ digits : List Nat, (∀ d ∈ digits, d ≤ 9) ∧ bytes = (digits.map digitChar).map Char.toNat := by
  have fits : ∀ d ∈ bytes.map fun x => x - 48, d ≤ 9 := by
    intro d member
    obtain ⟨x, inside, rfl⟩ := List.mem_map.mp member
    have range := (isDigit_iff x).mp (all x inside)
    omega
  refine ⟨bytes.map fun x => x - 48, fits, ?_⟩
  rw [digits_toNat fits, List.map_map]
  symm
  rw [List.map_congr_left (g := id), List.map_id]
  intro x inside
  have range := (isDigit_iff x).mp (all x inside)
  change 48 + (x - 48) = x
  omega

theorem fraction_isDigit (f : Fraction) : ∀ x ∈ (f.digits.map digitChar).map Char.toNat, isDigit x = true := by
  intro x member
  rw [digits_toNat f.fits] at member
  obtain ⟨d, inside, rfl⟩ := List.mem_map.mp member
  have small := f.fits d inside
  rw [isDigit_iff]
  omega

/-- What follows the seconds. -/
def tail (b : List Nat) : Bool :=
  match zoneStart b with
  | none => false
  | some i => zone b i

theorem tail_point {front : List Nat} (length : front.length = 19) (more : List Nat) :
    tail (front ++ 46 :: more) = (!(more.takeWhile isDigit).isEmpty && zone (more.dropWhile isDigit) 0) := by
  have point := char_append front (46 :: more) 0 '.'
  have found : char (46 :: more) 0 '.' = true := rfl
  have after := @List.drop_length_add_append _ front (46 :: more) 1
  have split : front ++ 46 :: more = (front ++ 46 :: more.takeWhile isDigit) ++ more.dropWhile isDigit := by
    rw [List.append_assoc, List.cons_append, List.takeWhile_append_dropWhile]
  rw [length] at point after
  change List.drop 20 _ = more at after
  unfold tail zoneStart
  rw [point, if_pos found, after]
  cases digits : more.takeWhile isDigit with
  | nil => rfl
  | cons d ds =>
    have place : 20 + (d :: ds).length = (front ++ 46 :: more.takeWhile isDigit).length := by
      simp only [List.length_append, List.length_cons, length, digits]
      omega
    have filled : (d :: ds).length ≠ 0 := Nat.succ_ne_zero _
    rw [if_neg filled, split, place]
    exact zone_append _ _

theorem tail_plain {front : List Nat} (length : front.length = 19) {rest : List Nat} (plain : rest.head? ≠ some 46) :
    tail (front ++ rest) = zone rest 0 := by
  have point := char_append front rest 0 '.'
  rw [length] at point
  have none : char rest 0 '.' = false := by
    unfold char
    rw [beq_eq_false_iff_ne, ← List.head?_eq_getElem?]
    exact plain
  unfold tail zoneStart
  rw [point, none, if_neg Bool.false_ne_true]
  dsimp only
  rw [← length]
  exact zone_append _ _

/-- After the seconds stand an optional fraction and a zone. -/
theorem tail_iff {front : List Nat} (length : front.length = 19) (rest : List Nat) : tail (front ++ rest) = true ↔
    ∃ (fraction : Option Fraction) (place : Zone),
      rest = ((fraction.map Fraction.text).getD [] ++ place.text).map Char.toNat := by
  by_cases point : rest.head? = some 46
  · obtain ⟨more, rfl⟩ : ∃ more, rest = 46 :: more := by
      cases rest with
      | nil => cases point
      | cons x more => exact ⟨more, by rw [Option.some.inj point]⟩
    rw [tail_point length, Bool.and_eq_true, Bool.not_eq_true', List.isEmpty_eq_false_iff, zone_iff]
    constructor
    · rintro ⟨filled, place, zone⟩
      obtain ⟨digits, fits, text⟩ := digits_of_isDigit fun x member => List.mem_takeWhile_imp member
      refine ⟨some ⟨digits, fun empty => filled (by rw [text, empty]; rfl), fits⟩, place, ?_⟩
      rw [List.map_append, ← zone]
      change 46 :: more = 46 :: (digits.map digitChar).map Char.toNat ++ _
      rw [← text, List.cons_append, List.takeWhile_append_dropWhile]
    · rintro ⟨fraction, place, text⟩
      obtain ⟨x, later, head, notDigit, notPoint⟩ := zone_head place
      cases fraction with
      | none =>
        rw [Option.map_none, Option.getD_none, List.nil_append, head] at text
        exact absurd (List.cons.inj text).1.symm notPoint
      | some f =>
        rw [List.map_append] at text
        have same : more = (f.digits.map digitChar).map Char.toNat ++ place.text.map Char.toNat := (List.cons.inj text).2
        have all := fraction_isDigit f
        rw [same, List.takeWhile_append_of_pos all, List.dropWhile_append_of_pos all, head,
          List.takeWhile_cons_of_neg (by simp [notDigit]), List.dropWhile_cons_of_neg (by simp [notDigit]), ← head]
        refine ⟨?_, place, rfl⟩
        simpa using f.filled
  · rw [tail_plain length point, zone_iff]
    constructor
    · rintro ⟨place, zone⟩
      exact ⟨none, place, zone⟩
    · rintro ⟨fraction, place, text⟩
      cases fraction with
      | none => exact ⟨place, text⟩
      | some f =>
        rw [text] at point
        exact absurd rfl point

def layout (b : List Nat) : Bool :=
  digits b 0 4 && char b 4 '-' && digits b 5 2 && char b 7 '-' && digits b 8 2 && (char b 10 'T' || char b 10 't') &&
    digits b 11 2 && char b 13 ':' && digits b 14 2 && char b 16 ':' && digits b 17 2

def ranges (b : List Nat) : Bool :=
  (1 ≤ num b 5 2 && num b 5 2 ≤ 12) && (1 ≤ num b 8 2 && num b 8 2 ≤ 31) && num b 11 2 ≤ 23 && num b 14 2 ≤ 59 &&
    num b 17 2 ≤ 60

theorem isRfc3339_parts (s : String) : Rust.isRfc3339 s = true ↔
    20 ≤ (Utf8.bytes s).length ∧ layout (Utf8.bytes s) = true ∧ ranges (Utf8.bytes s) = true ∧ tail (Utf8.bytes s) = true := by
  change (if (Utf8.bytes s).length < 20 then false else if (!layout (Utf8.bytes s)) = true then false
    else if (!ranges (Utf8.bytes s)) = true then false else tail (Utf8.bytes s)) = true ↔ _
  split
  · rename_i short
    exact iff_of_false Bool.false_ne_true fun accepted => by omega
  · rename_i long
    split
    · rename_i other
      rw [Bool.not_eq_true'] at other
      simp [other]
    · rename_i laid
      split
      · rename_i other
        rw [Bool.not_eq_true'] at other
        simp [other]
      · rename_i ranged
        simp only [Bool.not_eq_true', Bool.not_eq_false] at laid ranged
        exact ⟨fun ends => ⟨by omega, laid, ranged, ends⟩, fun parts => parts.2.2.2⟩

section Head

variable (y0 y1 y2 y3 c0 m0 m1 c1 d0 d1 t h0 h1 c2 n0 n1 c3 s0 s1 : Nat) (rest : List Nat)

theorem layout_cons : layout (y0 :: y1 :: y2 :: y3 :: c0 :: m0 :: m1 :: c1 :: d0 :: d1 :: t :: h0 :: h1 :: c2 :: n0 :: n1 ::
      c3 :: s0 :: s1 :: rest) = true ↔
    (isDigit y0 = true ∧ isDigit y1 = true ∧ isDigit y2 = true ∧ isDigit y3 = true) ∧ c0 = 45 ∧
    (isDigit m0 = true ∧ isDigit m1 = true) ∧ c1 = 45 ∧ (isDigit d0 = true ∧ isDigit d1 = true) ∧ (t = 84 ∨ t = 116) ∧
    (isDigit h0 = true ∧ isDigit h1 = true) ∧ c2 = 58 ∧ (isDigit n0 = true ∧ isDigit n1 = true) ∧ c3 = 58 ∧
    (isDigit s0 = true ∧ isDigit s1 = true) := by
  simp only [layout, char, digits, digit, List.range_succ, List.range_zero]
  simp [and_assoc]

theorem ranges_cons : ranges (y0 :: y1 :: y2 :: y3 :: c0 :: m0 :: m1 :: c1 :: d0 :: d1 :: t :: h0 :: h1 :: c2 :: n0 :: n1 ::
      c3 :: s0 :: s1 :: rest) = true ↔
    (1 ≤ (m0 - 48) * 10 + (m1 - 48) ∧ (m0 - 48) * 10 + (m1 - 48) ≤ 12) ∧
    (1 ≤ (d0 - 48) * 10 + (d1 - 48) ∧ (d0 - 48) * 10 + (d1 - 48) ≤ 31) ∧
    (h0 - 48) * 10 + (h1 - 48) ≤ 23 ∧ (n0 - 48) * 10 + (n1 - 48) ≤ 59 ∧ (s0 - 48) * 10 + (s1 - 48) ≤ 60 := by
  simp only [ranges, num]
  simp [and_assoc]

end Head

def headText (date : Date) (separator : Char) (time : Time) : List Char := date.text ++ separator :: time.text

theorem headText_toNat (date : Date) (separator : Char) (time : Time) (rest : List Nat) :
    (headText date separator time).map Char.toNat ++ rest =
      (48 + date.year / 100 / 10) :: (48 + date.year / 100 % 10) :: (48 + date.year % 100 / 10) ::
      (48 + date.year % 100 % 10) :: 45 :: (48 + date.month / 10) :: (48 + date.month % 10) :: 45 ::
      (48 + date.day / 10) :: (48 + date.day % 10) :: separator.toNat :: (48 + time.hour / 10) :: (48 + time.hour % 10) ::
      58 :: (48 + time.minute / 10) :: (48 + time.minute % 10) :: 58 :: (48 + time.second / 10) ::
      (48 + time.second % 10) :: rest := by
  have year := date.yearFits
  have month := date.monthFits
  have day := date.dayFits
  have hour := time.hourFits
  have minute := time.minuteFits
  have second := time.secondFits
  simp only [headText, Date.text, Time.text, List.map_append, List.map_cons]
  rw [twoDigits_toNat (by omega), twoDigits_toNat (by omega), twoDigits_toNat (by omega), twoDigits_toNat (by omega),
    twoDigits_toNat (by omega), twoDigits_toNat (by omega), twoDigits_toNat (by omega)]
  rfl

/-- Nineteen bytes of a date and a time. -/
theorem head_iff {b : List Nat} (long : 20 ≤ b.length) : (layout b = true ∧ ranges b = true) ↔
    ∃ (date : Date) (separator : Char) (time : Time) (rest : List Nat), (separator = 'T' ∨ separator = 't') ∧
      b = (headText date separator time).map Char.toNat ++ rest := by
  constructor
  · rintro ⟨laid, ranged⟩
    have front : (b.take 19).length = 19 := by
      rw [List.length_take]
      omega
    have split := (List.take_append_drop 19 b).symm
    match bytes : b.take 19, front with
    | [y0, y1, y2, y3, c0, m0, m1, c1, d0, d1, t, h0, h1, c2, n0, n1, c3, s0, s1], _ =>
      rw [bytes] at split
      rw [split] at laid ranged
      obtain ⟨⟨y0Digit, y1Digit, y2Digit, y3Digit⟩, rfl, ⟨m0Digit, m1Digit⟩, rfl, ⟨d0Digit, d1Digit⟩, letter,
        ⟨h0Digit, h1Digit⟩, rfl, ⟨n0Digit, n1Digit⟩, rfl, s0Digit, s1Digit⟩ := (layout_cons ..).mp laid
      obtain ⟨months, days, hours, minutes, seconds⟩ := (ranges_cons ..).mp ranged
      have century := twoDigits_of_isDigit y0Digit y1Digit
      have year := twoDigits_of_isDigit y2Digit y3Digit
      have month := twoDigits_of_isDigit m0Digit m1Digit
      have day := twoDigits_of_isDigit d0Digit d1Digit
      have hour := twoDigits_of_isDigit h0Digit h1Digit
      have minute := twoDigits_of_isDigit n0Digit n1Digit
      have second := twoDigits_of_isDigit s0Digit s1Digit
      obtain ⟨separator, separated, rfl⟩ : ∃ separator : Char, (separator = 'T' ∨ separator = 't') ∧ separator.toNat = t := by
        rcases letter with rfl | rfl
        · exact ⟨'T', Or.inl rfl, rfl⟩
        · exact ⟨'t', Or.inr rfl, rfl⟩
      rw [isDigit_iff] at y0Digit y1Digit y2Digit y3Digit
      obtain ⟨number, fits, high, low⟩ : ∃ number, number ≤ 9999 ∧ number / 100 = (y0 - 48) * 10 + (y1 - 48) ∧
          number % 100 = (y2 - 48) * 10 + (y3 - 48) :=
        ⟨((y0 - 48) * 10 + (y1 - 48)) * 100 + ((y2 - 48) * 10 + (y3 - 48)), by omega, by omega, by omega⟩
      refine ⟨⟨number, _, _, fits, months, days⟩, separator, ⟨_, _, _, hours, minutes, seconds⟩, b.drop 19, separated, ?_⟩
      simp only [headText, Date.text, Time.text, List.map_append, List.map_cons, high, low, ← century, ← year, ← month,
        ← day, ← hour, ← minute, ← second]
      exact split
  · rintro ⟨date, separator, time, rest, separated, rfl⟩
    rw [headText_toNat, layout_cons, ranges_cons]
    have century := twoDigits_isDigit (n := date.year / 100) (by have := date.yearFits; omega)
    have year := twoDigits_isDigit (n := date.year % 100) (by omega)
    have month := twoDigits_isDigit (n := date.month) (by have := date.monthFits; omega)
    have day := twoDigits_isDigit (n := date.day) (by have := date.dayFits; omega)
    have hour := twoDigits_isDigit (n := time.hour) (by have := time.hourFits; omega)
    have minute := twoDigits_isDigit (n := time.minute) (by have := time.minuteFits; omega)
    have second := twoDigits_isDigit (n := time.second) (by have := time.secondFits; omega)
    have letter : separator.toNat = 84 ∨ separator.toNat = 116 := by
      rcases separated with rfl | rfl
      · exact Or.inl rfl
      · exact Or.inr rfl
    rw [month.2.2, day.2.2, hour.2.2, minute.2.2, second.2.2]
    exact ⟨⟨⟨century.1, century.2.1, year.1, year.2.1⟩, rfl, ⟨month.1, month.2.1⟩, rfl, ⟨day.1, day.2.1⟩, letter,
      ⟨hour.1, hour.2.1⟩, rfl, ⟨minute.1, minute.2.1⟩, rfl, second.1, second.2.1⟩, date.monthFits, date.dayFits,
      time.hourFits, time.minuteFits, time.secondFits⟩

theorem twoDigits_ascii {n : Nat} (small : n ≤ 99) : ∀ c ∈ twoDigits n, c.toNat < 0x80 := by
  intro c member
  have byte := List.mem_map_of_mem (f := Char.toNat) member
  rw [twoDigits_toNat small, List.mem_pair] at byte
  omega

theorem zone_ascii (place : Zone) : ∀ c ∈ place.text, c.toNat < 0x80 := by
  cases place with
  | utc letter isUtc => rcases isUtc with rfl | rfl <;> simp [Zone.text]
  | offset sign hour minute signed hourFits minuteFits =>
    have hours := twoDigits_ascii (n := hour) (by omega)
    have minutes := twoDigits_ascii (n := minute) (by omega)
    have signs : sign.toNat < 0x80 := by rcases signed with rfl | rfl <;> decide
    rw [Zone.text, List.forall_mem_cons, List.forall_mem_append, List.forall_mem_cons]
    exact ⟨signs, hours, by decide, minutes⟩

theorem head_ascii (date : Date) {separator : Char} (separated : separator = 'T' ∨ separator = 't') (time : Time) :
    ∀ c ∈ headText date separator time, c.toNat < 0x80 := by
  have century := twoDigits_ascii (n := date.year / 100) (by have := date.yearFits; omega)
  have year := twoDigits_ascii (n := date.year % 100) (by omega)
  have month := twoDigits_ascii (n := date.month) (by have := date.monthFits; omega)
  have day := twoDigits_ascii (n := date.day) (by have := date.dayFits; omega)
  have hour := twoDigits_ascii (n := time.hour) (by have := time.hourFits; omega)
  have minute := twoDigits_ascii (n := time.minute) (by have := time.minuteFits; omega)
  have second := twoDigits_ascii (n := time.second) (by have := time.secondFits; omega)
  have letter : separator.toNat < 0x80 := by rcases separated with rfl | rfl <;> decide
  simp only [headText, Date.text, Time.text, List.forall_mem_append, List.forall_mem_cons]
  exact ⟨⟨⟨⟨century, year⟩, by decide, month⟩, by decide, day⟩, letter, ⟨hour, by decide, minute⟩, by decide, second⟩

theorem fraction_ascii (f : Fraction) : ∀ c ∈ f.text, c.toNat < 0x80 := by
  rw [Fraction.text, List.forall_mem_cons]
  refine ⟨by decide, fun c member => ?_⟩
  obtain ⟨d, inside, rfl⟩ := List.mem_map.mp member
  have small := f.fits d inside
  rw [digitChar_toNat small]
  omega

theorem stamp_ascii (stamp : Stamp) : ∀ c ∈ stamp.text, c.toNat < 0x80 := by
  rw [Stamp.text, List.forall_mem_append]
  refine ⟨head_ascii stamp.date stamp.separated stamp.time, List.forall_mem_append.mpr ⟨?_, zone_ascii stamp.zone⟩⟩
  cases stamp.fraction with
  | none => exact List.forall_mem_nil _
  | some f => exact fraction_ascii f

/-- `is_rfc3339` accepts the grammar's texts and no others. -/
theorem isRfc3339_iff (s : String) : Rust.isRfc3339 s = true ↔ ∃ stamp : Stamp, s.toList = stamp.text := by
  rw [isRfc3339_parts]
  constructor
  · rintro ⟨long, laid, ranged, ends⟩
    obtain ⟨date, separator, time, rest, separated, split⟩ := (head_iff long).mp ⟨laid, ranged⟩
    have length : ((headText date separator time).map Char.toNat).length = 19 := rfl
    rw [split] at ends
    obtain ⟨fraction, place, text⟩ := (tail_iff length rest).mp ends
    refine ⟨⟨date, separator, time, fraction, place, separated⟩, (Utf8.bytes_eq_ascii_iff (stamp_ascii _)).mp ?_⟩
    rw [split, text, ← List.map_append]
    rfl
  · rintro ⟨stamp, text⟩
    have bytes := (Utf8.bytes_eq_ascii_iff (stamp_ascii stamp)).mpr text
    have length : ((headText stamp.date stamp.separator stamp.time).map Char.toNat).length = 19 := rfl
    obtain ⟨x, later, first, _⟩ := zone_head stamp.zone
    rw [Stamp.text, List.map_append] at bytes
    change _ = (headText stamp.date stamp.separator stamp.time).map Char.toNat ++ _ at bytes
    have long : 20 ≤ (Utf8.bytes s).length := by
      rw [bytes, List.length_append, length, List.map_append, first, List.length_append, List.length_cons]
      omega
    have parts := (head_iff long).mpr ⟨stamp.date, stamp.separator, stamp.time, _, stamp.separated, bytes⟩
    refine ⟨long, parts.1, parts.2, ?_⟩
    rw [bytes]
    exact (tail_iff length _).mpr ⟨stamp.fraction, stamp.zone, rfl⟩

section Checked

variable {b : List Nat} {i : Nat}

theorem digits_two (seen : digits b i 2 = true) :
    ∃ x y rest, b.drop i = x :: y :: rest ∧ isDigit x = true ∧ isDigit y = true := by
  have first : digit b i = true := List.all_eq_true.mp seen 0 (by decide)
  have second : digit b (i + 1) = true := List.all_eq_true.mp seen 1 (by decide)
  obtain ⟨x, found, isFirst⟩ := (Option.any_eq_true _ _).mp first
  obtain ⟨y, found', isSecond⟩ := (Option.any_eq_true _ _).mp second
  obtain ⟨inside, rfl⟩ := List.getElem?_eq_some_iff.mp found
  obtain ⟨inside', rfl⟩ := List.getElem?_eq_some_iff.mp found'
  exact ⟨_, _, _, by rw [List.drop_eq_getElem_cons inside, List.drop_eq_getElem_cons inside'], isFirst, isSecond⟩

/-- Where two digits have been seen, `num` neither leaves the text nor underflows nor overflows. -/
theorem numChecked_two (seen : digits b i 2 = true) : numChecked b i 2 = some (num b i 2) := by
  obtain ⟨x, y, rest, shape, first, second⟩ := digits_two seen
  have length := congrArg List.length shape
  rw [List.length_drop, List.length_cons, List.length_cons] at length
  rw [isDigit_iff] at first second
  unfold numChecked num
  rw [if_neg (by omega), shape]
  change ((addDigit 0 x).bind fun a => (addDigit a y).bind some) = some ((0 * 10 + (x - 48)) * 10 + (y - 48))
  unfold addDigit
  rw [if_neg (by omega), Option.bind_some, if_neg (by omega), Option.bind_some]

theorem inRange_two (seen : digits b i 2 = true) (low high : Nat) :
    inRange b i low high = some (low ≤ num b i 2 && num b i 2 ≤ high) := by
  rw [inRange, numChecked_two seen, Option.map_some]

theorem andThen_some (first second : Bool) : andThen (some first) (some second) = some (first && second) := by
  cases first <;> rfl

theorem zoneChecked_eq (b : List Nat) (i : Nat) : zoneChecked b i = some (zone b i) := by
  unfold zoneChecked zone
  split
  · rfl
  · split
    · split
      · rename_i seen
        have parts := seen
        simp only [Bool.and_eq_true] at parts
        rw [inRange_two parts.1.1.1, inRange_two parts.1.2, andThen_some, seen]
        simp
      · rename_i other
        rw [Bool.not_eq_true] at other
        rw [other]
        rfl
    · rfl

theorem isRfc3339Checked_eq (s : String) : isRfc3339Checked s = some (Rust.isRfc3339 s) := by
  change (if (Utf8.bytes s).length < 20 then some false else if (!layout (Utf8.bytes s)) = true then some false
    else _) = some (if (Utf8.bytes s).length < 20 then false else if (!layout (Utf8.bytes s)) = true then false
    else if (!ranges (Utf8.bytes s)) = true then false else tail (Utf8.bytes s))
  split
  · rfl
  · split
    · rfl
    · rename_i laid
      rw [Bool.not_eq_true', Bool.not_eq_false] at laid
      have seen := laid
      unfold layout at seen
      simp only [Bool.and_eq_true] at seen
      obtain ⟨⟨⟨⟨⟨⟨⟨⟨⟨⟨-, -⟩, month⟩, -⟩, day⟩, -⟩, hour⟩, -⟩, minute⟩, -⟩, second⟩ := seen
      have ranged : ranges (Utf8.bytes s) = ((1 ≤ num (Utf8.bytes s) 5 2 && num (Utf8.bytes s) 5 2 ≤ 12) &&
          ((1 ≤ num (Utf8.bytes s) 8 2 && num (Utf8.bytes s) 8 2 ≤ 31) &&
          ((0 ≤ num (Utf8.bytes s) 11 2 && num (Utf8.bytes s) 11 2 ≤ 23) &&
          ((0 ≤ num (Utf8.bytes s) 14 2 && num (Utf8.bytes s) 14 2 ≤ 59) &&
          (0 ≤ num (Utf8.bytes s) 17 2 && num (Utf8.bytes s) 17 2 ≤ 60))))) := by
        simp [ranges, Bool.and_assoc]
      rw [inRange_two month, inRange_two day, inRange_two hour, inRange_two minute, inRange_two second, andThen_some,
        andThen_some, andThen_some, andThen_some, ← ranged]
      unfold tail
      cases zoneStart (Utf8.bytes s) with
      | none => cases ranges (Utf8.bytes s) <;> rfl
      | some i =>
        dsimp only
        rw [zoneChecked_eq, andThen_some]
        cases ranges (Utf8.bytes s) <;> rfl

end Checked

/-- Whatever the string, `is_rfc3339` returns, and accepts exactly the grammar's texts. -/
theorem rfc3339_accepts_exactly_its_grammar (s : String) :
    ∃ accepted, isRfc3339Checked s = some accepted ∧ (accepted = true ↔ ∃ stamp : Stamp, s.toList = stamp.text) :=
  ⟨Rust.isRfc3339 s, isRfc3339Checked_eq s, isRfc3339_iff s⟩

end BuilderProof
