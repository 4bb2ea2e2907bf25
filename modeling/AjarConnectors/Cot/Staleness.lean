import AjarConnectors.Builder.Instants
import AjarConnectors.Cot.RoundTrip
import AjarConnectors.Http.Rfc9112
import AjarConnectors.Http.Reading

namespace CotModel

open EventModel Rfc3339

/-- The value of a document's first element of a name under an attribute. -/
def attributeIn (name key : String) : List Markup → Option String
  | [] => none
  | .start n attributes :: later | .empty n attributes :: later =>
    if n = name then (attributes.find? fun a => a.1 = key).map Prod.snd else attributeIn name key later
  | _ :: later => attributeIn name key later

/-- The document's track leaves the map at a time that is neither before its start nor too late. -/
def StaleInTime (document : List Markup) (start : Stamp) : Prop :=
  ∃ stale : Stamp, attributeIn "event" "stale" document = some (String.ofList stale.text) ∧
    start.instant ≤ stale.instant ∧ stale.instant ≤ start.instant + staleS

def lastSecond : Nat := 24 * 3600 - 1

/-- `stale_after` reads no time here, and the start is written as the stale time. -/
def Unread (start : Stamp) : Prop :=
  start.separator = 't' ∨ start.fraction = none ∧ (start.zone.text.head? = some 'z' ∨ start.zone.text.head? = some '-')

/-- Where adding to the time of day and calling it UTC is right. -/
def StaleOnTime (start : Stamp) : Prop :=
  Unread start ∨
    start.zone.eastSeconds = 0 ∧ start.time.seconds + start.subsecond ≤ lastSecond ∨
    start.zone.eastSeconds = -60 ∧ start.subsecond = 0 ∧ start.time.seconds + 60 ≤ lastSecond ∨
    start.zone.eastSeconds = 60 ∧ lastSecond ≤ start.time.seconds

def timeOfDay (n : Nat) (inDay : n ≤ lastSecond) : Time where
  hour := n / 3600
  minute := n % 3600 / 60
  second := n % 60
  hourFits := by
    unfold lastSecond at inDay
    omega
  minuteFits := by omega
  secondFits := by omega

/-- The stamp that `stale_after` writes where it reads a time. -/
def counted (start : Stamp) : Stamp where
  date := start.date
  separator := 'T'
  time := timeOfDay (min (start.time.seconds + 60) lastSecond) (Nat.min_le_right _ _)
  fraction := none
  zone := .utc 'Z' (Or.inl rfl)
  separated := Or.inl rfl

end CotModel

namespace CotProof

open CotModel EventModel BuilderModel BuilderProof Rfc3339 TextModel
open HttpModel (Text splitOnce parseDigits)
open HttpProof (splitOnce_of_not_mem splitOnce_parts)

theorem not_mem_twoDigits {c : Char} (other : c.toNat < 48 ∨ 57 < c.toNat) {n : Nat} (small : n ≤ 99) :
    c ∉ Rfc3339.twoDigits n := by
  intro member
  have byte := List.mem_map_of_mem (f := Char.toNat) member
  rw [twoDigits_toNat small, List.mem_pair] at byte
  omega

theorem parseI64_twoDigits : ∀ {n : Nat}, n ≤ 99 → parseI64 (Rfc3339.twoDigits n) = some (n : Int) := by decide +kernel

theorem twoDigits_toList : ∀ {n : Nat}, n ≤ 99 → (CotModel.twoDigits (n : Int)).toList = Rfc3339.twoDigits n := by
  decide +kernel

theorem parseI64_mark {c : Char} (mark : HttpModel.digitValue c = none) (rest : Text) :
    ∀ {n : Nat}, n ≤ 99 → parseI64 (Rfc3339.twoDigits n ++ c :: rest) = none := by
  intro n small
  have digits : ∀ d, d ≤ 9 → HttpModel.digitValue (digitChar d) = some d ∧ digitChar d ≠ '-' ∧ digitChar d ≠ '+' := by decide
  obtain ⟨tens, notMinus, notPlus⟩ := digits (n / 10) (by omega)
  have ones := (digits (n % 10) (by omega)).1
  rw [Rfc3339.twoDigits, List.cons_append, List.cons_append, List.nil_append]
  unfold parseI64
  split
  · rfl
  · rename_i text same
    exact absurd (List.cons.inj same).1 notMinus
  · have plus : HttpModel.dropPlus (digitChar (n / 10) :: digitChar (n % 10) :: c :: rest) =
        digitChar (n / 10) :: digitChar (n % 10) :: c :: rest := by
      unfold HttpModel.dropPlus
      split
      · rename_i text same
        exact absurd (List.cons.inj same).1 notPlus
      · rfl
    have below : n / 10 < 10 ∧ n % 10 < 10 := by omega
    rw [plus]
    simp [parseDigits, tens, ones, mark, below.1, below.2]

theorem trimEndMatches_last {p : Char → Bool} {text : Text} {c : Char} (last : text.getLast? = some c) (stop : p c = false) :
    trimEndMatches p text = text := by
  obtain ⟨front, rfl⟩ := List.getLast?_eq_some_iff.mp last
  unfold trimEndMatches
  rw [List.reverse_append, List.reverse_singleton, List.singleton_append, List.dropWhile_cons_of_neg (by simp [stop])]
  simp

theorem trimEndMatches_append {p : Char → Bool} {c : Char} (gone : p c = true) (front : Text) :
    trimEndMatches p (front ++ [c]) = trimEndMatches p front := by
  unfold trimEndMatches
  rw [List.reverse_append, List.reverse_singleton, List.singleton_append, List.dropWhile_cons_of_pos gone]

def fractionText (s : Stamp) : Text := (s.fraction.map Fraction.text).getD []

theorem stamp_text (s : Stamp) : s.text = s.date.text ++ s.separator :: (Rfc3339.twoDigits s.time.hour ++ ':' ::
    (Rfc3339.twoDigits s.time.minute ++ ':' :: (Rfc3339.twoDigits s.time.second ++ (fractionText s ++ s.zone.text)))) := by
  simp [Stamp.text, Time.text, fractionText]

theorem ends_in_digit (front : Text) (t : Time) (s : Stamp) :
    ∃ d, d ≤ 9 ∧ (front ++ (Rfc3339.twoDigits t.second ++ fractionText s)).getLast? = some (digitChar d) := by
  unfold fractionText
  cases s.fraction with
  | none => exact ⟨t.second % 10, by omega, by simp [Rfc3339.twoDigits]⟩
  | some f =>
    have last := List.getLast?_eq_some_getLast f.filled
    refine ⟨f.digits.getLast f.filled, f.fits _ (List.getLast_mem f.filled), ?_⟩
    simp [Fraction.text, List.getLast?_append, List.getLast?_cons, last]

/-- What stands behind the seconds when the letters are trimmed. -/
def behind (s : Stamp) : Text := fractionText s ++ if s.zone.text = ['Z'] then [] else s.zone.text

theorem trimmed (front : Text) (s : Stamp) :
    trimEndMatches (· == 'Z') (front ++ (Rfc3339.twoDigits s.time.second ++ (fractionText s ++ s.zone.text))) =
      front ++ (Rfc3339.twoDigits s.time.second ++ behind s) := by
  have notLetter : ∀ d, d ≤ 9 → (digitChar d == 'Z') = false := by decide
  unfold behind
  cases zone : s.zone with
  | utc letter isUtc =>
    rcases isUtc with rfl | rfl
    · obtain ⟨d, small, last⟩ := ends_in_digit front s.time s
      have shape : front ++ (Rfc3339.twoDigits s.time.second ++ (fractionText s ++ ['Z'])) =
          (front ++ (Rfc3339.twoDigits s.time.second ++ fractionText s)) ++ ['Z'] := by simp
      simp only [Zone.text, if_pos, List.append_nil]
      rw [shape, trimEndMatches_append rfl, trimEndMatches_last last (notLetter d small)]
    · have other : ['z'] ≠ ['Z'] := by decide
      simp only [Zone.text]
      apply trimEndMatches_last (c := 'z') (by simp [List.getLast?_append]) (by decide)
  | offset sign hour minute signed hourFits minuteFits =>
    have other : (Zone.offset sign hour minute signed hourFits minuteFits).text ≠ ['Z'] := by simp [Zone.text]
    rw [if_neg other]
    apply trimEndMatches_last (c := digitChar (minute % 10)) _ (notLetter _ (by omega))
    simp [Zone.text, Rfc3339.twoDigits, List.getLast?_append, List.getLast?_cons]

/-- The text that `stale_after` takes for the seconds. -/
def secondsText (s : Stamp) : Text := (Rfc3339.twoDigits s.time.second ++ behind s).takeWhile fun c => c != '.' && c != '+'

theorem twoDigits_past {n : Nat} (small : n ≤ 99) : ∀ x ∈ Rfc3339.twoDigits n, (x != '.' && x != '+') = true := by
  intro x member
  have point := not_mem_twoDigits (c := '.') (by decide) small
  have plus := not_mem_twoDigits (c := '+') (by decide) small
  rw [Bool.and_eq_true, bne_iff_ne, bne_iff_ne]
  exact ⟨fun same => point (same ▸ member), fun same => plus (same ▸ member)⟩

theorem secondsText_digits {s : Stamp} (rest : Text) (shape : behind s = rest)
    (stop : rest = [] ∨ ∃ later, rest = '.' :: later ∨ rest = '+' :: later) :
    secondsText s = Rfc3339.twoDigits s.time.second := by
  have second := s.time.secondFits
  have digits := twoDigits_past (n := s.time.second) (by omega)
  rw [secondsText, shape, List.takeWhile_append_of_pos digits]
  rcases stop with rfl | ⟨later, rfl | rfl⟩
  · simp
  · simp
  · simp

theorem secondsText_mark {s : Stamp} {c : Char} (rest : Text) (shape : behind s = c :: rest)
    (mark : HttpModel.digitValue c = none) (past : (c != '.' && c != '+') = true) : parseI64 (secondsText s) = none := by
  have second := s.time.secondFits
  have digits := twoDigits_past (n := s.time.second) (by omega)
  rw [secondsText, shape, List.takeWhile_append_of_pos digits, List.takeWhile_cons]
  simp only [past, if_true]
  exact parseI64_mark mark _ (by omega)

/-- The seconds are read unless the stamp has no fraction and a zone that no split ends them at. -/
theorem parseI64_secondsText {s : Stamp} (upper : s.separator = 'T') :
    (Unread s → parseI64 (secondsText s) = none) ∧
      (¬Unread s → parseI64 (secondsText s) = some (s.time.second : Int)) := by
  have second := s.time.secondFits
  have same : s.separator ≠ 't' := by
    rw [upper]
    decide
  have read : ∀ rest, behind s = rest → (rest = [] ∨ ∃ later, rest = '.' :: later ∨ rest = '+' :: later) →
      parseI64 (secondsText s) = some (s.time.second : Int) := by
    intro rest shape stop
    rw [secondsText_digits rest shape stop]
    exact parseI64_twoDigits (by omega)
  cases fraction : s.fraction with
  | some f =>
    have shape : behind s = '.' :: (f.digits.map digitChar ++ if s.zone.text = ['Z'] then [] else s.zone.text) := by
      simp [behind, fractionText, fraction, Fraction.text]
    have known : ¬Unread s := by simp [Unread, same, fraction]
    exact ⟨fun unread => absurd unread known, fun _ => read _ shape (Or.inr ⟨_, Or.inl rfl⟩)⟩
  | none =>
    have shape : behind s = if s.zone.text = ['Z'] then [] else s.zone.text := by
      simp [behind, fractionText, fraction]
    cases zone : s.zone with
    | utc letter isUtc =>
      rcases isUtc with rfl | rfl
      · rw [zone] at shape
        have known : ¬Unread s := by simp [Unread, same, zone, Zone.text]
        exact ⟨fun unread => absurd unread known, fun _ => read _ shape (Or.inl (by simp [Zone.text]))⟩
      · have unread : Unread s := Or.inr ⟨fraction, Or.inl (by simp [zone, Zone.text])⟩
        have marked : behind s = 'z' :: [] := by
          rw [shape, zone]
          rfl
        exact ⟨fun _ => secondsText_mark [] marked (by decide) (by decide), fun known => absurd unread known⟩
    | offset sign hour minute signed hourFits minuteFits =>
      have longer : (Zone.offset sign hour minute signed hourFits minuteFits).text ≠ ['Z'] := by simp [Zone.text]
      rw [zone, if_neg longer] at shape
      rcases signed with rfl | rfl
      · have known : ¬Unread s := by simp [Unread, same, zone, Zone.text]
        exact ⟨fun unread => absurd unread known, fun _ => read _ shape (Or.inr ⟨_, Or.inr rfl⟩)⟩
      · have unread : Unread s := Or.inr ⟨fraction, Or.inr (by simp [zone, Zone.text])⟩
        exact ⟨fun _ => secondsText_mark _ shape (by decide) (by decide), fun known => absurd unread known⟩

theorem date_separator {c : Char} (other : c.toNat < 45 ∨ 57 < c.toNat) (date : Date) : c ∉ date.text := by
  have year := date.yearFits
  have month := date.monthFits
  have day := date.dayFits
  have digits : ∀ n, n ≤ 99 → c ∉ Rfc3339.twoDigits n := fun n small => not_mem_twoDigits (by omega) small
  have dash : c ≠ '-' := by
    rintro rfl
    revert other
    decide
  simp [Date.text, digits (date.year / 100) (by omega), digits (date.year % 100) (by omega),
    digits date.month (by omega), digits date.day (by omega), dash]

/-- No time is read behind a lower-case letter. -/
theorem staleAfter_lower {s : Stamp} (lower : s.separator = 't') : staleAfter (String.ofList s.text) = none := by
  have hour := s.time.hourFits
  have minute := s.time.minuteFits
  have second := s.time.secondFits
  have digits : ∀ n, n ≤ 99 → 'T' ∉ Rfc3339.twoDigits n := fun n small => not_mem_twoDigits (by decide) small
  have letters : 'T' ∉ (['t', ':', '.', '+', '-', 'Z', 'z'] : Text) := by decide
  have decimals : ∀ f : Fraction, 'T' ∉ f.digits.map digitChar := by
    intro f member
    obtain ⟨d, listed, same⟩ := List.mem_map.mp member
    have small := digitChar_toNat (f.fits d listed)
    rw [same] at small
    have range := f.fits d listed
    have code : 'T'.toNat = 84 := rfl
    omega
  have zoned : 'T' ∉ s.zone.text := by
    cases s.zone with
    | utc letter isUtc =>
      rcases isUtc with rfl | rfl
      · decide
      · decide
    | offset sign hour minute signed hourFits minuteFits =>
      rcases signed with rfl | rfl
      · simp [Zone.text, digits hour (by omega), digits minute (by omega)]
      · simp [Zone.text, digits hour (by omega), digits minute (by omega)]
  have absent : 'T' ∉ s.text := by
    rw [stamp_text, lower]
    cases fraction : s.fraction with
    | none =>
      simp [fractionText, fraction, date_separator (c := 'T') (by decide) s.date, digits s.time.hour (by omega),
        digits s.time.minute (by omega), digits s.time.second (by omega), zoned]
    | some f =>
      have point : 'T' ∉ f.text := by simpa [Fraction.text] using decimals f
      simp [fractionText, fraction, date_separator (c := 'T') (by decide) s.date, digits s.time.hour (by omega),
        digits s.time.minute (by omega), digits s.time.second (by omega), zoned, point]
  unfold staleAfter
  rw [String.toList_ofList]
  cases found : splitOnce 'T' s.text with
  | none => rfl
  | some parts =>
    apply absurd _ absent
    rw [splitOnce_parts found]
    simp

theorem staleAfter_upper {s : Stamp} (upper : s.separator = 'T') : staleAfter (String.ofList s.text) =
    (parseI64 (secondsText s)).map fun second =>
      let total := min ((s.time.hour : Int) * 3600 + s.time.minute * 60 + second + staleS) (24 * 3600 - 1)
      String.ofList s.date.text ++ "T" ++ CotModel.twoDigits (total.tdiv 3600) ++ ":" ++
        CotModel.twoDigits ((total.tmod 3600).tdiv 60) ++ ":" ++ CotModel.twoDigits (total.tmod 60) ++ "Z" := by
  have hour := s.time.hourFits
  have minute := s.time.minuteFits
  have dated := splitOnce_of_not_mem (date_separator (c := 'T') (by decide) s.date)
  have hours := splitOnce_of_not_mem (not_mem_twoDigits (c := ':') (by decide) (n := s.time.hour) (by omega))
  have minutes := splitOnce_of_not_mem (not_mem_twoDigits (c := ':') (by decide) (n := s.time.minute) (by omega))
  have trim := trimmed (Rfc3339.twoDigits s.time.hour ++ ':' :: (Rfc3339.twoDigits s.time.minute ++ [':'])) s
  simp only [List.append_assoc, List.cons_append, List.nil_append] at trim
  unfold staleAfter
  rw [String.toList_ofList, stamp_text, upper, dated]
  dsimp only
  rw [trim, hours]
  dsimp only
  rw [minutes]
  dsimp only
  rw [parseI64_twoDigits (by omega), parseI64_twoDigits (by omega)]
  unfold secondsText
  generalize parseI64 _ = read
  cases read with
  | none => rfl
  | some second => rfl

theorem staleAfter_unread {s : Stamp} (unread : Unread s) : staleAfter (String.ofList s.text) = none := by
  rcases s.separated with upper | lower
  · rw [staleAfter_upper upper, (parseI64_secondsText upper).1 unread]
    rfl
  · exact staleAfter_lower lower

theorem counted_text (s : Stamp) : String.ofList (counted s).text =
    let time := timeOfDay (min (s.time.seconds + 60) lastSecond) (Nat.min_le_right _ _)
    String.ofList s.date.text ++ "T" ++ CotModel.twoDigits (time.hour : Int) ++ ":" ++ CotModel.twoDigits (time.minute : Int) ++
      ":" ++ CotModel.twoDigits (time.second : Int) ++ "Z" := by
  have hour := (counted s).time.hourFits
  have minute := (counted s).time.minuteFits
  have second := (counted s).time.secondFits
  apply String.toList_inj.mp
  change _ = String.toList (String.ofList s.date.text ++ "T" ++ CotModel.twoDigits ((counted s).time.hour : Int) ++ ":" ++
    CotModel.twoDigits ((counted s).time.minute : Int) ++ ":" ++ CotModel.twoDigits ((counted s).time.second : Int) ++ "Z")
  simp only [String.toList_append, String.toList_ofList]
  rw [twoDigits_toList (by omega), twoDigits_toList (by omega), twoDigits_toList (by omega), stamp_text]
  simp [counted, fractionText, Zone.text]

theorem staleAfter_read {s : Stamp} (read : ¬Unread s) :
    staleAfter (String.ofList s.text) = some (String.ofList (counted s).text) := by
  have upper : s.separator = 'T' := by
    rcases s.separated with upper | lower
    · exact upper
    · exact absurd (Or.inl lower) read
  rw [staleAfter_upper upper, (parseI64_secondsText upper).2 read, Option.map_some, counted_text]
  have total : min ((s.time.hour : Int) * 3600 + s.time.minute * 60 + s.time.second + staleS) (24 * 3600 - 1) =
      ((min (s.time.seconds + 60) lastSecond : Nat) : Int) := by
    unfold Time.seconds lastSecond staleS
    omega
  dsimp only
  rw [total]
  apply congrArg some
  have hours : ((min (s.time.seconds + 60) lastSecond : Nat) : Int).tdiv 3600 =
      ((min (s.time.seconds + 60) lastSecond / 3600 : Nat) : Int) := rfl
  have minutes : (((min (s.time.seconds + 60) lastSecond : Nat) : Int).tmod 3600).tdiv 60 =
      ((min (s.time.seconds + 60) lastSecond % 3600 / 60 : Nat) : Int) := rfl
  have seconds : ((min (s.time.seconds + 60) lastSecond : Nat) : Int).tmod 60 =
      ((min (s.time.seconds + 60) lastSecond % 60 : Nat) : Int) := rfl
  rw [hours, minutes, seconds]
  rfl

theorem seconds_timeOfDay {n : Nat} (inDay : n ≤ lastSecond) : (timeOfDay n inDay).seconds = n := by
  change n / 3600 * 3600 + n % 3600 / 60 * 60 + n % 60 = n
  omega

section

variable {n : Nat} {f : ℚ} {k : Int} (least : 0 ≤ f) (most : f < 1)
include least most

theorem within_minute_early (early : n + 60 ≤ lastSecond) :
    ((n : ℚ) + f - (60 * k : Int) ≤ (n + 60 : Nat) ∧ ((n + 60 : Nat) : ℚ) ≤ n + f - (60 * k : Int) + 60) ↔
      60 * k = 0 ∧ (n : ℚ) + f ≤ lastSecond ∨ 60 * k = -60 ∧ f = 0 := by
  have size : lastSecond = 86399 := rfl
  rw [size] at early ⊢
  have earlier : (n : ℚ) + 60 ≤ 86399 := by exact_mod_cast early
  push_cast
  constructor
  · rintro ⟨after, soon⟩
    have upper : k < 1 := by
      have below : (k : ℚ) < 1 := by linarith
      exact_mod_cast below
    have lower : -1 ≤ k := by
      have above : (-1 : ℚ) ≤ k := by linarith
      exact_mod_cast above
    have cases : k = 0 ∨ k = -1 := by omega
    rcases cases with rfl | rfl
    · exact Or.inl ⟨rfl, by linarith⟩
    · right
      push_cast at after
      exact ⟨rfl, by linarith⟩
  · rintro (⟨zero, inside⟩ | ⟨west, whole⟩)
    · have none : k = 0 := by omega
      subst none
      push_cast
      constructor <;> linarith
    · have minute : k = -1 := by omega
      subst minute
      push_cast
      constructor <;> linarith

theorem within_minute_late (late : lastSecond < n + 60) (day : n ≤ lastSecond + 1) :
    ((n : ℚ) + f - (60 * k : Int) ≤ lastSecond ∧ (lastSecond : ℚ) ≤ n + f - (60 * k : Int) + 60) ↔
      60 * k = 0 ∧ (n : ℚ) + f ≤ lastSecond ∨ 60 * k = 60 ∧ lastSecond ≤ n := by
  have size : lastSecond = 86399 := rfl
  rw [size] at late day ⊢
  have later : (86400 : ℚ) ≤ (n : ℚ) + 60 := by exact_mod_cast late
  have last : (n : ℚ) ≤ 86400 := by exact_mod_cast day
  push_cast
  constructor
  · rintro ⟨after, soon⟩
    have lower : 0 ≤ k := by
      have above : (-1 : ℚ) < k := by linarith
      have whole : -1 < k := by exact_mod_cast above
      omega
    have upper : k < 2 := by
      have below : (k : ℚ) < 2 := by linarith
      exact_mod_cast below
    have cases : k = 0 ∨ k = 1 := by omega
    rcases cases with rfl | rfl
    · left
      push_cast at after
      exact ⟨rfl, by linarith⟩
    · right
      push_cast at soon
      have above : (86398 : ℚ) < n := by linarith
      have whole : 86398 < n := by exact_mod_cast above
      exact ⟨rfl, by omega⟩
  · rintro (⟨zero, inside⟩ | ⟨east, end'⟩)
    · have none : k = 0 := by omega
      subst none
      push_cast
      constructor <;> linarith
    · have minute : k = 1 := by omega
      have ending : (86399 : ℚ) ≤ n := by exact_mod_cast end'
      subst minute
      push_cast
      constructor <;> linarith

/-- Offsets are whole minutes and fractions are below one, so few offsets leave the sum in the minute after the start. -/
theorem within_minute (day : n ≤ lastSecond + 1) :
    ((n : ℚ) + f - (60 * k : Int) ≤ (min (n + 60) lastSecond : Nat) ∧
        ((min (n + 60) lastSecond : Nat) : ℚ) ≤ n + f - (60 * k : Int) + 60) ↔
      60 * k = 0 ∧ (n : ℚ) + f ≤ lastSecond ∨ 60 * k = -60 ∧ f = 0 ∧ n + 60 ≤ lastSecond ∨
        60 * k = 60 ∧ lastSecond ≤ n := by
  have size : lastSecond = 86399 := rfl
  by_cases early : n + 60 ≤ lastSecond
  · rw [Nat.min_eq_left early, within_minute_early least most early]
    constructor
    · rintro (inside | ⟨west, whole⟩)
      · exact Or.inl inside
      · exact Or.inr (Or.inl ⟨west, whole, early⟩)
    · rintro (inside | ⟨west, whole, -⟩ | ⟨-, late⟩)
      · exact Or.inl inside
      · exact Or.inr ⟨west, whole⟩
      · omega
  · have late := Nat.lt_of_not_le early
    rw [Nat.min_eq_right (Nat.le_of_lt late), within_minute_late least most late day]
    constructor
    · rintro (inside | east)
      · exact Or.inl inside
      · exact Or.inr (Or.inr east)
    · rintro (inside | ⟨-, -, early'⟩ | east)
      · exact Or.inl inside
      · exact absurd early' early
      · exact Or.inr east

end

theorem counted_on_time {s : Stamp} (read : ¬Unread s) :
    (s.instant ≤ (counted s).instant ∧ (counted s).instant ≤ s.instant + staleS) ↔ StaleOnTime s := by
  obtain ⟨minutes, offset⟩ := offset_minutes s.zone
  obtain ⟨least, most⟩ := subsecond_bounds s
  have later : (counted s).instant = s.date.days * 86400 + (min (s.time.seconds + 60) lastSecond : Nat) := by
    have time : (counted s).time.seconds = min (s.time.seconds + 60) lastSecond :=
      seconds_timeOfDay (Nat.min_le_right _ _)
    have none : (counted s).subsecond = 0 := rfl
    have here : (counted s).zone.eastSeconds = 0 := rfl
    have date : (counted s).date = s.date := rfl
    rw [Stamp.instant, time, none, here, date, Int.cast_zero, sub_zero, add_zero]
  have between := within_minute (k := minutes) least most (seconds_le s.time)
  have minute : ((staleS : Int) : ℚ) = 60 := rfl
  rw [StaleOnTime, or_iff_right read, offset, ← between, later, Stamp.instant, offset, minute]
  constructor
  · rintro ⟨after, soon⟩
    exact ⟨by linarith, by linarith⟩
  · rintro ⟨after, soon⟩
    exact ⟨by linarith, by linarith⟩

theorem stale_written (floats : Floats) (event : Event) (loc : GeoPoint) :
    attributeIn "event" "stale" (documentOf floats event loc) = some (escape (staleOf event)) := rfl

theorem stamp_escape (s : Stamp) : escape (String.ofList s.text) = String.ofList s.text := by
  apply (escape_eq_iff _).mpr
  apply plain_of_rfc3339
  exact (isRfc3339_iff _).mpr ⟨s, String.toList_ofList⟩

theorem instant_eq_of_text {s t : Stamp} (same : s.text = t.text) (plain : t.fraction = none ∧ t.zone = .utc 'Z' (Or.inl rfl)) :
    s.instant = t.instant := by
  have text : t.text = headText t.date t.separator t.time ++ ['Z'] := by
    simp [Stamp.text, headText, plain.1, plain.2, Zone.text]
  rw [instant_of_text (same.trans text), instant_of_text text]

theorem stale_in_time_iff (floats : Floats) {event : Event} (loc : GeoPoint) {start : Stamp}
    (text : event.timestamp.toList = start.text) :
    StaleInTime (documentOf floats event loc) start ↔ StaleOnTime start := by
  have written : event.timestamp = String.ofList start.text := by rw [← text, String.ofList_toList]
  unfold StaleInTime
  rw [stale_written, staleOf, written]
  by_cases unread : Unread start
  · rw [staleAfter_unread unread, Option.getD_none, stamp_escape]
    apply iff_of_true _ (Or.inl unread)
    have minute : (0 : ℚ) ≤ ((staleS : Int) : ℚ) := by decide
    exact ⟨start, rfl, le_refl _, by linarith⟩
  · rw [staleAfter_read unread, Option.getD_some, stamp_escape, ← counted_on_time unread]
    constructor
    · rintro ⟨stale, same, after, soon⟩
      have texts : (counted start).text = stale.text := String.ofList_injective (Option.some.inj same)
      rw [← instant_eq_of_text texts.symm ⟨rfl, rfl⟩]
      exact ⟨after, soon⟩
    · rintro ⟨after, soon⟩
      exact ⟨counted start, rfl, after, soon⟩

/-- The stale time of a document is the sink's sum, which is right for the stamps of `StaleOnTime` alone. -/
theorem marker_stays_a_minute_iff (floats : Floats) {event : Event} {loc : GeoPoint} (located : event.location = some loc)
    (accepted : Rust.isRfc3339 event.timestamp = true) :
    render floats event = some (writeAll (documentOf floats event loc)) ∧
      ∃ start : Stamp, event.timestamp.toList = start.text ∧
        (StaleInTime (documentOf floats event loc) start ↔ StaleOnTime start) := by
  obtain ⟨start, text⟩ := (isRfc3339_iff _).mp accepted
  exact ⟨render_writes floats event loc located, start, text, stale_in_time_iff floats loc text⟩

def flightAt (timestamp : String) : Event := { flight "QTR8CJ" with timestamp }

theorem noon_marker_stays : ∃ start : Stamp, "2026-06-10T08:00:00Z".toList = start.text ∧
    (StaleInTime (documentOf gulfFloats (flightAt "2026-06-10T08:00:00Z") gulf) start ↔ StaleOnTime start) := by
  have located : (flightAt "2026-06-10T08:00:00Z").location = some gulf := rfl
  exact (marker_stays_a_minute_iff gulfFloats located (by decide +kernel)).2

def eastern : Stamp where
  date := ⟨2026, 6, 10, by decide, by decide, by decide⟩
  separator := 'T'
  time := ⟨8, 0, 0, by decide, by decide, by decide⟩
  fraction := none
  zone := .offset '+' 2 0 (Or.inl rfl) (by decide) (by decide)
  separated := Or.inl rfl

/-- Two hours east of UTC, a track is still on the map two hours after the minute it has. -/
theorem eastern_marker_stays_too_long : Rust.isRfc3339 "2026-06-10T08:00:00+02:00" = true ∧
    "2026-06-10T08:00:00+02:00".toList = eastern.text ∧
    attributeIn "event" "stale" (documentOf gulfFloats (flightAt "2026-06-10T08:00:00+02:00") gulf) =
      some "2026-06-10T08:01:00Z" ∧
    ¬StaleInTime (documentOf gulfFloats (flightAt "2026-06-10T08:00:00+02:00") gulf) eastern := by
  have text : "2026-06-10T08:00:00+02:00".toList = eastern.text := by decide +kernel
  have stale : attributeIn "event" "stale" (documentOf gulfFloats (flightAt "2026-06-10T08:00:00+02:00") gulf) =
      some "2026-06-10T08:01:00Z" := by decide +kernel
  refine ⟨by decide +kernel, text, stale, fun onTime => ?_⟩
  have same : (flightAt "2026-06-10T08:00:00+02:00").timestamp.toList = eastern.text := text
  have late := (stale_in_time_iff gulfFloats gulf same).mp onTime
  have east : eastern.zone.eastSeconds = 7200 := rfl
  rcases late with (lower | ⟨-, mark | mark⟩) | ⟨utc, -⟩ | ⟨west, -, -⟩ | ⟨minute, -⟩
  · exact absurd lower (by decide)
  · exact absurd mark (by decide)
  · exact absurd mark (by decide)
  · omega
  · omega
  · omega

end CotProof
