import Backtest.Proofs.Calendar.Reading
import Mathlib.Data.List.Lex

namespace Backtest

namespace Date

def Before (d e : Date) : Prop :=
  d.year < e.year ∨ d.year = e.year ∧ (d.month < e.month ∨ d.month = e.month ∧ d.day < e.day)

/-- Of days that are found at their places, the one of the smaller number is in an earlier year, counted
from March, or earlier in the same one. -/
theorem Located.place_lt {n cycle year month dayOfYear n' cycle' year' month' dayOfYear' : Int}
    (h : Located n cycle year month dayOfYear) (h' : Located n' cycle' year' month' dayOfYear')
    (less : n < n') :
    cycle * 400 + year < cycle' * 400 + year' ∨
      cycle * 400 + year = cycle' * 400 + year' ∧ dayOfYear < dayOfYear' := by
  obtain ⟨number, within, -, months, inMonth, -⟩ := h
  obtain ⟨number', within', ended', months', inMonth', -⟩ := h'
  rw [isLeap_iff] at ended'
  have begun : 0 ≤ dayOfYear := by omega
  clear months inMonth months' inMonth'
  -- a cycle is longer than any place in it, and so is a year
  have cycles : cycle ≤ cycle' := by omega
  rcases Int.lt_or_eq_of_le cycles with earlier | rfl
  · omega
  · have years : year ≤ year' := by omega
    rcases Int.lt_or_eq_of_le years with earlier | rfl
    · omega
    · omega

theorem ofDayNumber_before {n n' : Int} (less : n < n') : (ofDayNumber n).Before (ofDayNumber n') := by
  obtain ⟨cycle, year, month, dayOfYear, h⟩ := exists_located n
  obtain ⟨cycle', year', month', dayOfYear', h'⟩ := exists_located n'
  have place := h.place_lt h' less
  have months := h.months
  have months' := h'.months
  have inMonth := h.inMonth
  have inMonth' := h'.inMonth
  have sameYear : dayOfYear < dayOfYear' → month < month' ∨ month = month' := by omega
  rw [h.date, h'.date]
  unfold Before
  dsimp only
  split <;> split <;> omega

/-- The years that are written in four digits. -/
def InFourDigits (year : Int) : Prop := 0 ≤ year ∧ year ≤ 9999

instance (year : Int) : Decidable (InFourDigits year) := inferInstanceAs (Decidable (_ ∧ _))

theorem InFourDigits.inCalendar {year : Int} (h : InFourDigits year) : InCalendar year := by
  obtain ⟨positive, small⟩ := h
  constructor <;> omega

end Date

/-- Texts in as many characters decide on the order of what begins with them. -/
theorem append_lt_append {front front' : List Char} (length : front.length = front'.length)
    (less : front < front') (rest rest' : List Char) : front ++ rest < front' ++ rest' := by
  induction less with
  | nil => cases length
  | rel less => exact List.Lex.rel less
  | cons _ ih => exact List.Lex.cons (ih (Nat.succ.inj length))

namespace DateTime

theorem field_lt {width n n' : Nat} (some : 0 < width) (fits : n' < 10 ^ width) {mark : Char}
    {rest rest' : List Char} (less : n < n' ∨ n = n' ∧ rest < rest') :
    (Decimal.padded width n).toList ++ mark :: rest <
      (Decimal.padded width n').toList ++ mark :: rest' := by
  rcases less with less | ⟨rfl, behind⟩
  · refine append_lt_append ?_ (Decimal.toList_padded_lt some fits less) _ _
    rw [Decimal.length_padded some (less.trans fits), Decimal.length_padded some fits]
  · exact List.Lex.append_left _ (List.Lex.cons behind) _

def Before (t u : DateTime) : Prop :=
  t.date.Before u.date ∨ t.date = u.date ∧ (t.hour < u.hour ∨ t.hour = u.hour ∧
    (t.minute < u.minute ∨ t.minute = u.minute ∧ t.second < u.second))

theorem yearText_eq {year : Int} (h : Date.InFourDigits year) :
    yearText year = Decimal.padded 4 year.natAbs := by
  obtain ⟨positive, small⟩ := h
  unfold yearText
  rw [if_neg (by omega), if_neg (by omega)]

theorem text_lt {t u : DateTime} (year : Date.InFourDigits t.date.year)
    (year' : Date.InFourDigits u.date.year) (moment : u.IsMoment) (before : t.Before u) :
    t.text < u.text := by
  obtain ⟨date, hour, minute, second⟩ := moment
  have days := Date.daysInMonth_le u.date.year u.date.month
  simp only [Date.isValid, Bool.and_eq_true, decide_eq_true_eq] at date
  rw [String.lt_iff, toList_text, toList_text, yearText_eq year, yearText_eq year']
  obtain ⟨⟨⟨⟨⟨-, -⟩, -⟩, month⟩, -⟩, day⟩ := date
  obtain ⟨positive, -⟩ := year
  obtain ⟨positive', small'⟩ := year'
  refine field_lt (by decide) (by omega) ?_
  rcases before with (earlier | ⟨same, before⟩) | ⟨same, before⟩
  · exact .inl (by omega)
  · refine .inr ⟨by rw [same], field_lt (by decide) (by omega) ?_⟩
    rcases before with earlier | ⟨same, earlier⟩
    · exact .inl earlier
    · exact .inr ⟨same, field_lt (by decide) (by omega) (.inl earlier)⟩
  · rw [same]
    refine .inr ⟨rfl, field_lt (by decide) (by omega) (.inr ⟨rfl, ?_⟩)⟩
    refine field_lt (by decide) (by omega) (.inr ⟨rfl, field_lt (by decide) (by omega) ?_⟩)
    refine before.imp_right (And.imp_right fun before => field_lt (by decide) (by omega) ?_)
    exact before.imp_right
      (And.imp_right fun earlier => Decimal.toList_padded_lt (by decide) (by omega) earlier)

theorem ofSeconds_before {time time' : Int} (h : firstSecond ≤ time ∧ time ≤ lastSecond)
    (h' : firstSecond ≤ time' ∧ time' ≤ lastSecond) (less : time < time') :
    (ofSeconds time).Before (ofSeconds time') := by
  rw [ofSeconds_eq h, ofSeconds_eq h']
  by_cases earlier : time / 86400 < time' / 86400
  · exact .inl (Date.ofDayNumber_before earlier)
  · have sameDay : time / 86400 = time' / 86400 := by omega
    have inDay : (time % 86400).toNat < (time' % 86400).toNat := by omega
    refine .inr ⟨by rw [sameDay], ?_⟩
    dsimp only
    omega

end DateTime

/-- In the years of four digits, the earlier time has the smaller text. -/
theorem timestampText_lt {time time' : Int}
    (h : Date.InFourDigits (Date.ofDayNumber (time / 86400)).year)
    (h' : Date.InFourDigits (Date.ofDayNumber (time' / 86400)).year) (less : time < time') :
    timestampText time < timestampText time' := by
  have within := Date.inCalendar_iff.mp h.inCalendar
  have within' := Date.inCalendar_iff.mp h'.inCalendar
  refine DateTime.text_lt ?_ ?_ (DateTime.isMoment_ofSeconds within').1
    (DateTime.ofSeconds_before within within' less)
  · rw [DateTime.ofSeconds_eq within]
    exact h
  · rw [DateTime.ofSeconds_eq within']
    exact h'

theorem timestampText_lt_iff {time time' : Int}
    (h : Date.InFourDigits (Date.ofDayNumber (time / 86400)).year)
    (h' : Date.InFourDigits (Date.ofDayNumber (time' / 86400)).year) :
    timestampText time < timestampText time' ↔ time < time' := by
  refine ⟨fun before => ?_, timestampText_lt h h'⟩
  rcases Int.lt_trichotomy time time' with earlier | rfl | later
  · exact earlier
  · exact absurd before (String.lt_irrefl _)
  · exact absurd before (String.lt_asymm (timestampText_lt h' h later))

theorem timestampText_inj_iff {time time' : Int}
    (h : Date.InFourDigits (Date.ofDayNumber (time / 86400)).year)
    (h' : Date.InFourDigits (Date.ofDayNumber (time' / 86400)).year) :
    timestampText time = timestampText time' ↔ time = time' := by
  refine ⟨fun same => ?_, congrArg timestampText⟩
  rcases Int.lt_trichotomy time time' with earlier | level | later
  · exact absurd same (String.ne_of_lt (timestampText_lt h h' earlier))
  · exact level
  · exact absurd same.symm (String.ne_of_lt (timestampText_lt h' h later))

end Backtest
