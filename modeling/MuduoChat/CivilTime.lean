import Mathlib.Data.Int.Basic
import Mathlib.Tactic.SplitIfs

/-!
# Civil time

Dates of the Gregorian calendar and times of day without leap seconds.
`seconds` is the formula of POSIX for the seconds since the start of 1970;
`ofSeconds` is the clock that shows a valid date and time for every number of
seconds, and `seconds_ofSeconds` says that the formula reads the clock back.

`render` writes a date and time in nineteen characters.
-/

namespace MuduoChat.CivilTime

/-! ## The calendar -/

def IsLeap (year : Int) : Prop :=
  year % 4 = 0 ∧ (year % 100 ≠ 0 ∨ year % 400 = 0)

instance (year : Int) : Decidable (IsLeap year) :=
  inferInstanceAs (Decidable (_ ∧ _))

def daysInMonth (year : Int) (month : Nat) : Nat :=
  if month = 2 then (if IsLeap year then 29 else 28)
  else if month = 4 ∨ month = 6 ∨ month = 9 ∨ month = 11 then 30
  else 31

/-- The days of the year before a month, the first one being number 1. -/
def daysBeforeMonth (year : Int) : Nat → Nat
  | 0 | 1 => 0
  | month + 2 => daysBeforeMonth year (month + 1) + daysInMonth year (month + 1)

/-- The days from the start of 1970 to the start of a year, with the leap
days in between. -/
def daysBeforeYear (year : Int) : Int :=
  (year - 1970) * 365 + (year - 1969) / 4 - (year - 1901) / 100 +
    (year - 1601) / 400

def daysInYear (year : Int) : Nat :=
  if IsLeap year then 366 else 365

theorem daysBeforeMonth_succ (year : Int) {month : Nat} (hmonth : 1 ≤ month) :
    daysBeforeMonth year (month + 1) =
      daysBeforeMonth year month + daysInMonth year month := by
  cases month with
  | zero => omega
  | succ month => rfl

theorem daysBeforeMonth_thirteen (year : Int) :
    daysBeforeMonth year 13 = daysInYear year := by
  by_cases hleap : IsLeap year <;>
    simp [daysBeforeMonth, daysInMonth, daysInYear, hleap]

theorem daysInMonth_le (year : Int) (month : Nat) :
    daysInMonth year month ≤ 31 := by
  unfold daysInMonth
  split_ifs <;> omega

/-! ## Seconds -/

/-- POSIX: the seconds since the start of 1970.  Days, hours, minutes and
seconds need not be within their usual ranges. -/
def seconds (year : Int) (month : Nat) (day hour minute second : Int) : Int :=
  (daysBeforeYear year + daysBeforeMonth year month + (day - 1)) * 86400 +
    hour * 3600 + minute * 60 + second

structure DateTime where
  year : Int
  month : Nat
  day : Nat
  hour : Nat
  minute : Nat
  second : Nat
  deriving DecidableEq

structure DateTime.Valid (shown : DateTime) : Prop where
  month_pos : 1 ≤ shown.month
  month_le : shown.month ≤ 12
  day_pos : 1 ≤ shown.day
  day_le : shown.day ≤ daysInMonth shown.year shown.month
  hour_lt : shown.hour < 24
  minute_lt : shown.minute < 60
  second_lt : shown.second < 60

def DateTime.seconds (shown : DateTime) : Int :=
  CivilTime.seconds shown.year shown.month shown.day shown.hour shown.minute
    shown.second

/-! ## The clock -/

/-- The year a day since the start of 1970 falls in, and its number there,
from 0.  Cycles of 400, 100, 4 years and 1 year are counted from 1601 on; the
last day of a leap year is not the first of another cycle. -/
def yearAndDay (days : Int) : Int × Nat :=
  let day := days + 134774
  let cycle := day / 146097
  let inCycle := day % 146097
  let century := min (inCycle / 36524) 3
  let inCentury := inCycle - century * 36524
  let four := inCentury / 1461
  let inFour := inCentury % 1461
  let one := min (inFour / 365) 3
  (1601 + cycle * 400 + century * 100 + four * 4 + one,
    (inFour - one * 365).toNat)

/-- The month a day of the year falls in, `day` days after the start of
`month`, and its number there. -/
def monthAndDay (year : Int) : Nat → Nat → Nat → Nat × Nat
  | 0, month, day => (month, day + 1)
  | rest + 1, month, day =>
      if day < daysInMonth year month then (month, day + 1)
      else monthAndDay year rest (month + 1) (day - daysInMonth year month)

def ofSeconds (instant : Int) : DateTime :=
  let (year, dayOfYear) := yearAndDay (instant / 86400)
  let (month, day) := monthAndDay year 11 1 dayOfYear
  let time := (instant % 86400).toNat
  { year := year
    month := month
    day := day
    hour := time / 3600
    minute := time / 60 % 60
    second := time % 60 }

section Cycles

variable {cycle century four one : Int}

theorem daysBeforeYear_cycles (hcentury : 0 ≤ century ∧ century ≤ 3)
    (hfour : 0 ≤ four ∧ four ≤ 24) (hone : 0 ≤ one ∧ one ≤ 3) :
    daysBeforeYear (1601 + cycle * 400 + century * 100 + four * 4 + one) =
      cycle * 146097 + century * 36524 + four * 1461 + one * 365 -
        134774 := by
  have hquarter : (1601 + cycle * 400 + century * 100 + four * 4 + one -
      1969) / 4 = cycle * 100 + century * 25 + four - 92 := by
    omega
  have hhundred : (1601 + cycle * 400 + century * 100 + four * 4 + one -
      1901) / 100 = cycle * 4 + century - 3 := by
    omega
  have hwhole : (1601 + cycle * 400 + century * 100 + four * 4 + one -
      1601) / 400 = cycle := by
    omega
  unfold daysBeforeYear
  rw [hquarter, hhundred, hwhole]
  omega

theorem isLeap_cycles (hcentury : 0 ≤ century ∧ century ≤ 3)
    (hfour : 0 ≤ four ∧ four ≤ 24) (hone : 0 ≤ one ∧ one ≤ 3) :
    IsLeap (1601 + cycle * 400 + century * 100 + four * 4 + one) ↔
      one = 3 ∧ (four ≠ 24 ∨ century = 3) := by
  have hquarter : (1601 + cycle * 400 + century * 100 + four * 4 + one) % 4 =
      0 ↔ one = 3 := by
    omega
  have hhundred : (1601 + cycle * 400 + century * 100 + four * 4 + one) %
      100 = 0 ↔ one = 3 ∧ four = 24 := by
    omega
  have hwhole : (1601 + cycle * 400 + century * 100 + four * 4 + one) % 400 =
      0 ↔ one = 3 ∧ four = 24 ∧ century = 3 := by
    omega
  unfold IsLeap
  rw [ne_eq, hquarter, hhundred, hwhole]
  omega

end Cycles

theorem yearAndDay_spec (days : Int) :
    daysBeforeYear (yearAndDay days).1 + (yearAndDay days).2 = days ∧
      (yearAndDay days).2 < daysInYear (yearAndDay days).1 := by
  unfold yearAndDay
  dsimp only
  have hdays := Int.emod_add_mul_ediv (days + 134774) 146097
  have hcycle : 0 ≤ (days + 134774) % 146097 ∧
      (days + 134774) % 146097 < 146097 := by
    omega
  generalize (days + 134774) / 146097 = cycle at hdays
  generalize (days + 134774) % 146097 = inCycle at hdays hcycle
  have hcentury : 0 ≤ min (inCycle / 36524) 3 ∧
      min (inCycle / 36524) 3 ≤ 3 ∧
      0 ≤ inCycle - min (inCycle / 36524) 3 * 36524 ∧
      inCycle - min (inCycle / 36524) 3 * 36524 ≤ 36524 ∧
      (min (inCycle / 36524) 3 ≠ 3 →
        inCycle - min (inCycle / 36524) 3 * 36524 < 36524) := by
    omega
  generalize min (inCycle / 36524) 3 = century at hcentury
  obtain ⟨hlow, hhigh, hpos, hle, hlt⟩ := hcentury
  have hfour := Int.emod_add_mul_ediv (inCycle - century * 36524) 1461
  have hrange : 0 ≤ (inCycle - century * 36524) % 1461 ∧
      (inCycle - century * 36524) % 1461 < 1461 := by
    omega
  generalize (inCycle - century * 36524) / 1461 = four at hfour
  generalize (inCycle - century * 36524) % 1461 = inFour at hfour hrange
  have hone : 0 ≤ min (inFour / 365) 3 ∧ min (inFour / 365) 3 ≤ 3 ∧
      0 ≤ inFour - min (inFour / 365) 3 * 365 ∧
      inFour - min (inFour / 365) 3 * 365 ≤ 365 ∧
      (inFour - min (inFour / 365) 3 * 365 = 365 →
        min (inFour / 365) 3 = 3 ∧ inFour = 1460) := by
    omega
  generalize min (inFour / 365) 3 = one at hone
  rw [daysBeforeYear_cycles ⟨hlow, hhigh⟩ (by omega) ⟨hone.1, hone.2.1⟩]
  have hleap := @isLeap_cycles cycle century four one ⟨hlow, hhigh⟩ (by omega)
    ⟨hone.1, hone.2.1⟩
  constructor
  · omega
  · unfold daysInYear
    rw [if_congr hleap rfl rfl]
    split_ifs <;> omega

/-- The month found is one of those still to come, and the day is where it
was. -/
theorem monthAndDay_spec (year : Int) (rest month day : Nat)
    (hmonth : 1 ≤ month)
    (hday : daysBeforeMonth year month + day <
      daysBeforeMonth year (month + rest + 1)) :
    month ≤ (monthAndDay year rest month day).1 ∧
      (monthAndDay year rest month day).1 ≤ month + rest ∧
      1 ≤ (monthAndDay year rest month day).2 ∧
      (monthAndDay year rest month day).2 ≤
        daysInMonth year (monthAndDay year rest month day).1 ∧
      daysBeforeMonth year (monthAndDay year rest month day).1 +
          (monthAndDay year rest month day).2 =
        daysBeforeMonth year month + day + 1 := by
  induction rest generalizing month day with
  | zero =>
      rw [Nat.add_zero, daysBeforeMonth_succ year hmonth] at hday
      unfold monthAndDay
      dsimp only
      omega
  | succ rest ih =>
      have hnext := daysBeforeMonth_succ year hmonth
      unfold monthAndDay
      split
      · rename_i hlt
        dsimp only
        omega
      · rename_i hge
        have hrest : daysBeforeMonth year (month + 1) +
            (day - daysInMonth year month) <
              daysBeforeMonth year (month + 1 + rest + 1) := by
          rw [show month + 1 + rest + 1 = month + (rest + 1) + 1 by omega]
          omega
        obtain ⟨hlow, hhigh, hpos, hle, hsum⟩ := ih (month + 1) _ (by omega)
          hrest
        refine ⟨by omega, by omega, hpos, hle, ?_⟩
        rw [hsum]
        omega

theorem dayOfYear_spec (instant : Int) :
    let shown := ofSeconds instant
    1 ≤ shown.month ∧ shown.month ≤ 12 ∧ 1 ≤ shown.day ∧
      shown.day ≤ daysInMonth shown.year shown.month ∧
      daysBeforeYear shown.year + daysBeforeMonth shown.year shown.month +
        (shown.day - 1) = instant / 86400 := by
  obtain ⟨hyear, hday⟩ := yearAndDay_spec (instant / 86400)
  have hfirst : daysBeforeMonth (yearAndDay (instant / 86400)).1 1 = 0 := rfl
  have hlast := daysBeforeMonth_thirteen (yearAndDay (instant / 86400)).1
  obtain ⟨hlow, hhigh, hpos, hle, hsum⟩ := monthAndDay_spec
    (yearAndDay (instant / 86400)).1 11 1 (yearAndDay (instant / 86400)).2
    (le_refl 1) (by
      rw [hfirst, show 1 + 11 + 1 = 13 from rfl, hlast]
      omega)
  refine ⟨hlow, hhigh, hpos, hle, ?_⟩
  simp only [ofSeconds]
  omega

theorem valid_ofSeconds (instant : Int) : (ofSeconds instant).Valid := by
  obtain ⟨hlow, hhigh, hpos, hle, -⟩ := dayOfYear_spec instant
  refine ⟨hlow, hhigh, hpos, hle, ?_, ?_, ?_⟩
  · simp only [ofSeconds]
    omega
  · simp only [ofSeconds]
    omega
  · simp only [ofSeconds]
    omega

/-- The formula reads the clock back. -/
theorem seconds_ofSeconds (instant : Int) :
    (ofSeconds instant).seconds = instant := by
  obtain ⟨-, -, -, -, hdays⟩ := dayOfYear_spec instant
  unfold DateTime.seconds CivilTime.seconds
  rw [hdays]
  simp only [ofSeconds]
  omega

example : ofSeconds 1714557600 = ⟨2024, 5, 1, 10, 0, 0⟩ := by decide

example : ofSeconds 951782399 = ⟨2000, 2, 28, 23, 59, 59⟩ := by decide

/-! ## Text -/

/-- The last `width` decimal digits. -/
def padded : Nat → Nat → List Char
  | 0, _ => []
  | width + 1, number =>
      padded width (number / 10) ++ [Nat.digitChar (number % 10)]

/-- `YYYY-MM-DD HH:MM:SS`. -/
def DateTime.render (shown : DateTime) : String :=
  String.ofList (padded 4 shown.year.toNat ++ '-' :: (padded 2 shown.month ++
    '-' :: (padded 2 shown.day ++ ' ' :: (padded 2 shown.hour ++
      ':' :: (padded 2 shown.minute ++ ':' :: padded 2 shown.second)))))

theorem isDigit_digitChar {digit : Nat} (hdigit : digit < 10) :
    (Nat.digitChar digit).isDigit = true := by
  revert digit
  decide

theorem isDigit_of_mem_padded {width number : Nat} {char : Char}
    (hchar : char ∈ padded width number) : char.isDigit = true := by
  induction width generalizing number with
  | zero => cases hchar
  | succ width ih =>
      rcases List.mem_append.mp hchar with hfirst | hlast
      · exact ih hfirst
      · rw [List.mem_singleton.mp hlast]
        exact isDigit_digitChar (Nat.mod_lt number (by decide))

theorem exists_padded (width number : Nat) :
    ∃ digit rest, padded (width + 1) number = digit :: rest ∧
      digit.isDigit = true := by
  induction width generalizing number with
  | zero =>
      exact ⟨_, [], rfl, isDigit_digitChar (Nat.mod_lt number (by decide))⟩
  | succ width ih =>
      obtain ⟨digit, rest, hpadded, hdigit⟩ := ih (number / 10)
      exact ⟨digit, rest ++ [Nat.digitChar (number % 10)], by
        rw [padded, hpadded, List.cons_append], hdigit⟩

end MuduoChat.CivilTime
