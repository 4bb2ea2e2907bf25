import Mathlib.Algebra.Order.Field.Rat
import Mathlib.Data.Rat.Cast.Order
import Mathlib.Tactic.Linarith
import Mathlib.Tactic.Positivity
import Mathlib.Tactic.Ring
import AjarConnectors.Builder.Rfc3339

namespace Rfc3339

/-- Seconds east of UTC. -/
def Zone.eastSeconds : Zone → Int
  | .utc _ _ => 0
  | .offset sign hour minute _ _ _ =>
    if sign = '-' then -(hour * 3600 + minute * 60 : Nat) else (hour * 3600 + minute * 60 : Nat)

/-- The second of the day; a leap second counts as the second after it. -/
def Time.seconds (t : Time) : Nat := t.hour * 3600 + t.minute * 60 + t.second

/-- The number that the decimals make behind a point. -/
def decimals (digits : List Nat) : ℚ := digits.foldr (fun (digit : Nat) (later : ℚ) => ((digit : ℚ) + later) / 10) 0

def Fraction.value (f : Fraction) : ℚ := decimals f.digits

def leap (year : Nat) : Bool := year % 4 == 0 && (year % 100 != 0 || year % 400 == 0)

/-- The days from the beginning of year 0, in the Gregorian calendar; a day that its month lacks counts on into the next. -/
def Date.days (d : Date) : Nat :=
  365 * d.year + (d.year + 3) / 4 - (d.year + 99) / 100 + (d.year + 399) / 400 +
    [0, 31, 59, 90, 120, 151, 181, 212, 243, 273, 304, 334].getD (d.month - 1) 0 +
    (if leap d.year ∧ 2 < d.month then 1 else 0) + (d.day - 1)

def Stamp.subsecond (s : Stamp) : ℚ := (s.fraction.map Fraction.value).getD 0

/-- The seconds from the beginning of year 0, in UTC. -/
def Stamp.instant (s : Stamp) : ℚ := s.date.days * 86400 + s.time.seconds + s.subsecond - s.zone.eastSeconds

end Rfc3339

namespace BuilderProof

open Rfc3339

theorem decimals_bounds {digits : List Nat} (fits : ∀ d ∈ digits, d ≤ 9) :
    0 ≤ decimals digits ∧ decimals digits < 1 := by
  induction digits with
  | nil => exact ⟨le_refl _, one_pos⟩
  | cons d digits ih =>
    obtain ⟨least, most⟩ := ih fun d member => fits d (List.mem_cons_of_mem _ member)
    have digit : (d : ℚ) ≤ 9 := by exact_mod_cast fits d List.mem_cons_self
    change 0 ≤ ((d : ℚ) + decimals digits) / 10 ∧ ((d : ℚ) + decimals digits) / 10 < 1
    constructor
    · positivity
    · rw [div_lt_one (by norm_num)]
      linarith

theorem subsecond_bounds (s : Stamp) : 0 ≤ s.subsecond ∧ s.subsecond < 1 := by
  unfold Stamp.subsecond
  cases s.fraction with
  | none => exact ⟨le_refl _, one_pos⟩
  | some f => exact decimals_bounds f.fits

theorem seconds_le (t : Time) : t.seconds ≤ 86400 := by
  have hour := t.hourFits
  have minute := t.minuteFits
  have second := t.secondFits
  unfold Time.seconds
  omega

/-- Offsets are whole minutes. -/
theorem offset_minutes (place : Zone) : ∃ minutes : Int, place.eastSeconds = 60 * minutes := by
  cases place with
  | utc letter isUtc => exact ⟨0, rfl⟩
  | offset sign hour minute signed hourFits minuteFits =>
    rw [Zone.eastSeconds]
    split
    · exact ⟨-(hour * 60 + minute), by push_cast; ring⟩
    · exact ⟨hour * 60 + minute, by push_cast; ring⟩

theorem digitChar_inj {m n : Nat} (left : m ≤ 9) (right : n ≤ 9) (same : digitChar m = digitChar n) : m = n := by
  have bytes := congrArg Char.toNat same
  rw [digitChar_toNat left, digitChar_toNat right] at bytes
  omega

theorem twoDigits_inj {m n : Nat} (left : m ≤ 99) (right : n ≤ 99) (same : twoDigits m = twoDigits n) : m = n := by
  rw [twoDigits, twoDigits, List.cons.injEq, List.cons.injEq] at same
  have tens := digitChar_inj (by omega) (by omega) same.1
  have ones := digitChar_inj (by omega) (by omega) same.2.1
  omega

theorem date_inj {d e : Date} (same : d.text = e.text) : d = e := by
  have year := d.yearFits
  have year' := e.yearFits
  have month := d.monthFits
  have month' := e.monthFits
  have day := d.dayFits
  have day' := e.dayFits
  simp only [Date.text, List.cons_append, List.append_assoc] at same
  obtain ⟨centuries, same⟩ := List.append_inj same rfl
  obtain ⟨years, same⟩ := List.append_inj same rfl
  obtain ⟨months, same⟩ := List.append_inj (List.cons.inj same).2 rfl
  have days := (List.cons.inj same).2
  have centuries := twoDigits_inj (by omega) (by omega) centuries
  have years := twoDigits_inj (by omega) (by omega) years
  have months := twoDigits_inj (by omega) (by omega) months
  have days := twoDigits_inj (by omega) (by omega) days
  have years : d.year = e.year := by omega
  cases d
  cases e
  simp_all

theorem time_inj {t u : Time} (same : t.text = u.text) : t = u := by
  have hour := t.hourFits
  have hour' := u.hourFits
  have minute := t.minuteFits
  have minute' := u.minuteFits
  have second := t.secondFits
  have second' := u.secondFits
  simp only [Time.text, List.cons_append, List.append_assoc] at same
  obtain ⟨hours, same⟩ := List.append_inj same rfl
  obtain ⟨minutes, same⟩ := List.append_inj (List.cons.inj same).2 rfl
  have seconds := (List.cons.inj same).2
  have hours := twoDigits_inj (by omega) (by omega) hours
  have minutes := twoDigits_inj (by omega) (by omega) minutes
  have seconds := twoDigits_inj (by omega) (by omega) seconds
  cases t
  cases u
  simp_all

/-- A text that ends in `Z` right after the seconds is the stamp of one instant. -/
theorem instant_of_text {s : Stamp} {date : Date} {separator : Char} {time : Time}
    (text : s.text = headText date separator time ++ ['Z']) : s.instant = date.days * 86400 + time.seconds := by
  have split : headText s.date s.separator s.time ++ (((s.fraction.map Fraction.text).getD []) ++ s.zone.text) =
      headText date separator time ++ ['Z'] := text
  obtain ⟨head, rest⟩ := List.append_inj split rfl
  obtain ⟨dates, later⟩ := List.append_inj head rfl
  have times := (List.cons.inj later).2
  have date := date_inj dates
  have time := time_inj times
  have plain : s.subsecond = 0 ∧ s.zone.eastSeconds = 0 := by
    unfold Stamp.subsecond
    cases fraction : s.fraction with
    | some f =>
      rw [fraction, Option.map_some, Option.getD_some, Fraction.text, List.cons_append, List.cons.injEq] at rest
      exact absurd rest.1 (by decide)
    | none =>
      refine ⟨rfl, ?_⟩
      rw [fraction, Option.map_none, Option.getD_none, List.nil_append] at rest
      cases zone : s.zone with
      | utc letter isUtc => rfl
      | offset sign hour minute signed hourFits minuteFits =>
        rw [zone, Zone.text, List.cons.injEq] at rest
        exact absurd rest.2 (by simp [twoDigits])
  rw [Stamp.instant, plain.1, plain.2, date, time]
  simp

end BuilderProof
