import Backtest.Calendar.Timestamp
import Mathlib.Tactic.IntervalCases

namespace Backtest
namespace Date

theorem isLeap_iff {year : Int} :
    isLeap year = true ↔ year % 4 = 0 ∧ (year % 100 ≠ 0 ∨ year % 400 = 0) := by
  simp [isLeap]

theorem daysInMonth_le (year : Int) (month : Nat) : daysInMonth year month ≤ 31 := by
  unfold daysInMonth
  split
  · split <;> decide
  · split <;> decide

/-- A day of a cycle of 400 years, by its year and the number of days since the first of March of that
year. Before the March of a leap year, a year has its 366th day. -/
structure InCycle (day year dayOfYear : Int) : Prop where
  placed : day = year * 365 + year / 4 - year / 100 + dayOfYear
  within : 0 ≤ year ∧ year < 400
  begun : 0 ≤ dayOfYear
  ended : dayOfYear < 365 ∨ dayOfYear = 365 ∧ isLeap (year + 1) = true

/-- A cycle has centuries of 36524 days, in them fours of years of 1461, and in these years of 365, each as
many as fit. What is left over at the end of four years, or of the cycle, is a leap day. -/
theorem exists_inCycle {day : Int} (h : 0 ≤ day ∧ day < 146097) :
    ∃ year dayOfYear, InCycle day year dayOfYear := by
  obtain ⟨century, hcentury⟩ : ∃ c, c = min (day / 36524) 3 := ⟨_, rfl⟩
  obtain ⟨four, hfour⟩ : ∃ q, q = (day - 36524 * century) / 1461 := ⟨_, rfl⟩
  obtain ⟨one, hone⟩ : ∃ m, m = min ((day - 36524 * century - 1461 * four) / 365) 3 := ⟨_, rfl⟩
  have centuries : 0 ≤ century ∧ century ≤ 3 := by omega
  have fours : 0 ≤ four ∧ four ≤ 24 := by omega
  have ones : 0 ≤ one ∧ one ≤ 3 := by omega
  refine ⟨100 * century + 4 * four + one, day - 36524 * century - 1461 * four - 365 * one, ?_, ?_, ?_, ?_⟩
  · omega
  · omega
  · omega
  · rw [isLeap_iff]
    omega

/-- The year of a day is the quotient by 365, once the leap days before it are taken off. -/
theorem InCycle.year_eq {day year dayOfYear : Int} (h : InCycle day year dayOfYear) :
    (day - day / 1460 + day / 36524 - day / 146096) / 365 = year := by
  obtain ⟨placed, within, begun, ended⟩ := h
  rw [isLeap_iff] at ended
  obtain ⟨c, hc⟩ : ∃ c, c = year / 100 := ⟨_, rfl⟩
  obtain ⟨q, hq⟩ : ∃ q, q = year / 4 - 25 * c := ⟨_, rfl⟩
  obtain ⟨m, hm⟩ : ∃ m, m = year - 100 * c - 4 * q := ⟨_, rfl⟩
  have centuries : 0 ≤ c ∧ c ≤ 3 := by omega
  have fours : 0 ≤ q ∧ q ≤ 24 := by omega
  have ones : 0 ≤ m ∧ m ≤ 3 := by omega
  have inCentury : 1461 * q + 365 * m + dayOfYear < 36524 ∨
      c = 3 ∧ 1461 * q + 365 * m + dayOfYear = 36524 := by omega
  have inFour : dayOfYear < 365 ∨ dayOfYear = 365 ∧ m = 3 := by omega
  have day_eq : day = 36524 * c + 1461 * q + 365 * m + dayOfYear := by omega
  have year_eq : year = 100 * c + 4 * q + m := by omega
  clear placed within ended hc hq hm
  have centuryOf : day / 36524 - day / 146096 = c := by
    rcases inCentury with before | ⟨rfl, last⟩
    · omega
    · omega
  -- the quotient by 1460 is one ahead only in the last days of four years
  have fourOf : day / 1460 = 25 * c + q ∧ dayOfYear < 365 ∨
      day / 1460 = 25 * c + q + 1 ∧ 0 < dayOfYear := by
    clear centuryOf inCentury
    rcases inFour with before | ⟨rfl, rfl⟩
    · omega
    · omega
  omega

/-- Where the day of a number is found. Months are counted from March, and `(153 * month + 2) / 5` is how
many days of the year are before a month. -/
structure Located (n cycle year month dayOfYear : Int) : Prop where
  number : n + 719468 = cycle * 146097 + (year * 365 + year / 4 - year / 100 + dayOfYear)
  within : 0 ≤ year ∧ year < 400
  ended : dayOfYear < 365 ∨ dayOfYear = 365 ∧ isLeap (year + 1) = true
  months : 0 ≤ month ∧ month < 12
  inMonth : (153 * month + 2) / 5 ≤ dayOfYear ∧ dayOfYear < (153 * (month + 1) + 2) / 5
  date : ofDayNumber n =
    ⟨if month < 10 then cycle * 400 + year else cycle * 400 + year + 1,
      (if month < 10 then month + 3 else month - 9).toNat, (dayOfYear - (153 * month + 2) / 5 + 1).toNat⟩

theorem exists_located (n : Int) :
    ∃ cycle year month dayOfYear, Located n cycle year month dayOfYear := by
  have inCycle : 0 ≤ (n + 719468) % 146097 ∧ (n + 719468) % 146097 < 146097 :=
    ⟨Int.emod_nonneg _ (by decide), Int.emod_lt_of_pos _ (by decide)⟩
  obtain ⟨year, dayOfYear, h⟩ := exists_inCycle inCycle
  have placed := h.placed
  have begun := h.begun
  have ended : dayOfYear ≤ 365 := by
    rcases h.ended with before | ⟨last, -⟩ <;> omega
  have rest : (n + 719468) % 146097 - (365 * year + year / 4 - year / 100) = dayOfYear := by omega
  refine ⟨(n + 719468) / 146097, year, (5 * dayOfYear + 2) / 153, dayOfYear, ?_, h.within, h.ended,
    by omega, by omega, ?_⟩
  · have := Int.mul_ediv_add_emod (n + 719468) 146097
    omega
  · unfold ofDayNumber
    simp only [h.year_eq, rest]
    congr 1
    split <;> split <;> omega

theorem dayNumber_ofDayNumber (n : Int) : dayNumber (ofDayNumber n) = n := by
  obtain ⟨cycle, year, month, dayOfYear, number, within, -, ⟨first, last⟩, inMonth, date⟩ :=
    exists_located n
  rw [date]
  unfold dayNumber
  interval_cases month <;> simp <;> omega

theorem ofDayNumber_inMonth (n : Int) :
    (1 ≤ (ofDayNumber n).month ∧ (ofDayNumber n).month ≤ 12) ∧ 1 ≤ (ofDayNumber n).day ∧
      (ofDayNumber n).day ≤ daysInMonth (ofDayNumber n).year (ofDayNumber n).month := by
  obtain ⟨cycle, year, month, dayOfYear, -, -, ended, ⟨first, last⟩, inMonth, date⟩ := exists_located n
  rw [date]
  have leap : isLeap (cycle * 400 + year + 1) = isLeap (year + 1) := by
    rw [Bool.eq_iff_iff, isLeap_iff, isLeap_iff]
    omega
  interval_cases month
  -- only the last month, February, depends on the year
  case «11» =>
    cases hleap : isLeap (year + 1) with
    | true =>
      simp [daysInMonth, leap, hleap]
      omega
    | false =>
      have before : dayOfYear < 365 := ended.resolve_right (by simp [hleap])
      simp [daysInMonth, leap, hleap]
      omega
  all_goals
    simp [daysInMonth]
    omega

def InCalendar (year : Int) : Prop := -262143 ≤ year ∧ year ≤ 262142

instance (year : Int) : Decidable (InCalendar year) := inferInstanceAs (Decidable (_ ∧ _))

theorem ofDayNumber_isValid {n : Int} (h : InCalendar (ofDayNumber n).year) :
    (ofDayNumber n).isValid = true := by
  obtain ⟨month, day⟩ := ofDayNumber_inMonth n
  simp [isValid, h.1, h.2, month, day]

/-- These years are those from the first to the last second of the calendar. -/
theorem inCalendar_iff {time : Int} :
    InCalendar (ofDayNumber (time / 86400)).year ↔
      DateTime.firstSecond ≤ time ∧ time ≤ DateTime.lastSecond := by
  obtain ⟨cycle, year, month, dayOfYear, number, within, ended, months, inMonth, date⟩ :=
    exists_located (time / 86400)
  rw [date]
  unfold InCalendar DateTime.firstSecond DateTime.lastSecond
  -- the first of January is the day 306 after the first of March
  have january : month < 10 ↔ dayOfYear < 306 := by omega
  have days : 0 ≤ dayOfYear ∧ dayOfYear ≤ 365 := by omega
  clear date inMonth ended months
  dsimp only
  constructor
  · intro h
    split at h <;> omega
  · intro h
    -- the year before the last one is counted to the day
    by_cases last : cycle * 400 + year = 262142
    · obtain ⟨rfl, rfl⟩ : cycle = 655 ∧ year = 142 := by omega
      split <;> omega
    · split <;> omega

end Date
end Backtest
