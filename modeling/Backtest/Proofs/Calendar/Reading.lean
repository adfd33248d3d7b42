import Backtest.Calendar.Pattern
import Backtest.Proofs.Calendar.Date
import Backtest.Proofs.Decimal.Digits

namespace Backtest

section Blanks

theorem isBlank_of_isDigit {c : Char} (h : c.isDigit = true) : isBlank c = false := by
  have code := Decimal.toNat_digit h
  have zero : '0'.toNat = 48 := rfl
  simp only [isBlank, Bool.or_eq_false_iff, Bool.and_eq_false_iff, decide_eq_false_iff_not,
    beq_eq_false_iff_ne]
  omega

theorem dropWhile_isBlank {c : Char} (h : isBlank c = false) (cs : List Char) :
    (c :: cs).dropWhile isBlank = c :: cs :=
  List.dropWhile_cons_of_neg (by simp [h])

theorem trimBlanks_of_ends {cs : List Char} (first : ∀ c ∈ cs.head?, isBlank c = false)
    (last : ∀ c ∈ cs.getLast?, isBlank c = false) : trimBlanks cs = cs := by
  have front {cs : List Char} (first : ∀ c ∈ cs.head?, isBlank c = false) : cs.dropWhile isBlank = cs := by
    cases cs with
    | nil => rfl
    | cons c cs => exact dropWhile_isBlank (first c rfl) cs
  unfold trimBlanks
  rw [front first, front (List.head?_reverse ▸ last), List.reverse_reverse]

end Blanks

namespace DateField

theorem readDigits_append {width : Nat} {digits rest : List Char}
    (all : ∀ c ∈ digits, c.isDigit = true) (some : digits ≠ []) (fits : digits.length ≤ width)
    (ends : digits.length = width ∨ ∀ c ∈ rest.head?, c.isDigit = false) :
    readDigits width (digits ++ rest) = Option.some (Decimal.digitsValue 0 digits, rest) := by
  have further : (rest.take (width - digits.length)).takeWhile Char.isDigit = [] := by
    rcases ends with full | stops
    · rw [full, Nat.sub_self, List.take_zero, List.takeWhile_nil]
    · cases rest with
      | nil => rw [List.take_nil, List.takeWhile_nil]
      | cons c rest =>
        cases width - digits.length with
        | zero => rfl
        | succ n =>
          rw [List.take_succ_cons, List.takeWhile_cons_of_neg]
          simpa using stops c rfl
  have taken : ((digits ++ rest).take width).takeWhile Char.isDigit = digits := by
    rw [List.take_append, List.take_of_length_le fits, List.takeWhile_append_of_pos all, further,
      List.append_nil]
  unfold readDigits
  dsimp only
  rw [taken, if_neg (by simpa using some), List.drop_left]

theorem readDigits_padded {width w n : Nat} {rest : List Char}
    (fits : (Decimal.padded w n).toList.length ≤ width)
    (ends : (Decimal.padded w n).toList.length = width ∨ ∀ c ∈ rest.head?, c.isDigit = false) :
    readDigits width ((Decimal.padded w n).toList ++ rest) = some (n, rest) := by
  rw [readDigits_append (fun _ => Decimal.isDigit_of_mem_padded) (Decimal.padded_ne_nil w n) fits ends,
    Decimal.digitsValue_padded]

/-- Without a blank or the sign of a year in front, a field reads digits. -/
theorem read_cons {f : DateField} {c : Char} (unblank : isBlank c = false)
    (unsigned : f = .year → c ≠ '+' ∧ c ≠ '-') (cs : List Char) :
    f.read (c :: cs) = (readDigits f.width (c :: cs)).map fun (n, rest) => ((n : Int), rest) := by
  unfold read
  rw [dropWhile_isBlank unblank]
  dsimp only
  split
  next plus => exact absurd (List.cons.inj plus).1 (unsigned rfl).1
  next minus => exact absurd (List.cons.inj minus).1 (unsigned rfl).2
  next => rfl

theorem read_plus (cs : List Char) :
    year.read ('+' :: cs) = (readDigits cs.length cs).map fun (n, rest) => ((n : Int), rest) :=
  rfl

theorem read_minus (cs : List Char) :
    year.read ('-' :: cs) = (readDigits cs.length cs).map fun (n, rest) => (-(n : Int), rest) :=
  rfl

theorem read_padded {f : DateField} {w n : Nat} {rest : List Char}
    (fits : (Decimal.padded w n).toList.length ≤ f.width)
    (ends : (Decimal.padded w n).toList.length = f.width ∨ ∀ c ∈ rest.head?, c.isDigit = false) :
    f.read ((Decimal.padded w n).toList ++ rest) = some ((n : Int), rest) := by
  have digits := readDigits_padded fits ends
  cases h : (Decimal.padded w n).toList with
  | nil => exact absurd h (Decimal.padded_ne_nil w n)
  | cons c cs =>
    have digit : c.isDigit = true := Decimal.isDigit_of_mem_padded (h ▸ List.mem_cons_self)
    have unsigned : c ≠ '+' ∧ c ≠ '-' := by
      constructor <;> (rintro rfl; cases digit)
    rw [h, List.cons_append] at digits
    rw [List.cons_append, read_cons (isBlank_of_isDigit digit) fun _ => unsigned, digits]
    rfl

theorem read_yearText (y : Int) (rest : List Char) :
    year.read ((DateTime.yearText y).toList ++ '-' :: rest) = some (y, '-' :: rest) := by
  have stops : ∀ c ∈ ('-' :: rest).head?, c.isDigit = false := by
    rintro c ⟨⟩
    rfl
  have shorter (w n : Nat) : (Decimal.padded w n).toList.length ≤
      ((Decimal.padded w n).toList ++ '-' :: rest).length := by
    rw [List.length_append]
    exact Nat.le_add_right _ _
  unfold DateTime.yearText
  dsimp only
  split
  next negative =>
    have sign : "-".toList = ['-'] := rfl
    have value : -(y.natAbs : Int) = y := by omega
    rw [String.toList_append, sign, List.append_assoc, List.singleton_append, read_minus,
      readDigits_padded (shorter 4 _) (.inr stops)]
    exact congrArg (fun y => some (y, '-' :: rest)) value
  next =>
    have value : (y.natAbs : Int) = y := by omega
    split
    next =>
      have sign : "+".toList = ['+'] := rfl
      rw [String.toList_append, sign, List.append_assoc, List.singleton_append, read_plus,
        readDigits_padded (shorter 4 _) (.inr stops)]
      exact congrArg (fun y => some (y, '-' :: rest)) value
    next =>
      have length : (Decimal.padded 4 y.natAbs).toList.length = 4 :=
        Decimal.length_padded (by decide) (by omega)
      rw [read_padded length.le (.inl length), value]

theorem read_eq_none {f : DateField} {c : Char} (unblank : isBlank c = false) (other : f ≠ .year)
    (noDigit : c.isDigit = false) (cs : List Char) : f.read (c :: cs) = none := by
  rw [read_cons unblank fun same => absurd same other]
  unfold readDigits
  have none : ((c :: cs).take f.width).takeWhile Char.isDigit = [] := by
    cases f.width with
    | zero => rfl
    | succ n =>
      rw [List.take_succ_cons, List.takeWhile_cons_of_neg]
      simpa using noDigit
  dsimp only
  rw [none]
  rfl

end DateField

namespace DatePattern

open DateField PatternPiece

variable {f : DateField} {ps : DatePattern} {r : DateReading}

theorem readFrom_field {cs rest : List Char} {n : Int}
    (read : f.read cs = some (n, rest)) (admits : f.admits n = true) (new : r.find f = none) :
    readFrom (.field f :: ps) r cs = readFrom ps ((f, n) :: r) rest := by
  have added : r.add f n = some ((f, n) :: r) := by
    unfold DateReading.add
    rw [admits, new]
    rfl
  rw [readFrom, read]
  simp [added]

theorem readFrom_two (short : f ≠ .year) {n : Nat} (admits : f.admits n = true) (new : r.find f = none)
    (rest : List Char) :
    readFrom (.field f :: ps) r ((Decimal.padded 2 n).toList ++ rest) =
      readFrom ps ((f, (n : Int)) :: r) rest := by
  have width : f.width = 2 := by
    cases f <;> first | rfl | exact absurd rfl short
  have small : n < 10 ^ 2 := by
    cases f <;> simp [DateField.admits] at admits <;> first | omega | exact absurd rfl short
  have length := (Decimal.length_padded (by decide) small).trans width.symm
  exact readFrom_field (read_padded length.le (.inl length)) admits new

theorem readFrom_mark {m : Char} (cs : List Char) :
    readFrom (.mark m :: ps) r (m :: cs) = readFrom ps r cs := by
  rw [readFrom, if_pos rfl]

theorem readFrom_blank {w n : Nat} (rest : List Char) :
    readFrom (.blanks :: ps) r (' ' :: ((Decimal.padded w n).toList ++ rest)) =
      readFrom ps r ((Decimal.padded w n).toList ++ rest) := by
  cases h : (Decimal.padded w n).toList with
  | nil => exact absurd h (Decimal.padded_ne_nil w n)
  | cons c cs =>
    have digit : c.isDigit = true := Decimal.isDigit_of_mem_padded (h ▸ List.mem_cons_self)
    rw [readFrom, List.dropWhile_cons_of_pos rfl, List.cons_append,
      dropWhile_isBlank (isBlank_of_isDigit digit)]

theorem readFrom_field_none {cs : List Char} (unread : f.read cs = none) :
    readFrom (.field f :: ps) r cs = none := by
  rw [readFrom, unread]
  rfl

theorem readFrom_day_digits {a b c : Char} (digits : ∀ x ∈ [a, b, c], x.isDigit = true) (rest : List Char) :
    readFrom (.field .day :: .mark '/' :: ps) r (a :: b :: c :: rest) = none := by
  have first : a.isDigit = true := digits a (by simp)
  have slash : c ≠ '/' := by
    rintro rfl
    cases digits '/' (by simp)
  have front : readDigits 2 ([a, b] ++ c :: rest) = some (Decimal.digitsValue 0 [a, b], c :: rest) :=
    readDigits_append (fun x hx => digits x (List.mem_append_left [c] hx)) (List.cons_ne_nil _ _)
      le_rfl (.inl rfl)
  have read : DateField.day.read (a :: b :: c :: rest) =
      some ((Decimal.digitsValue 0 [a, b] : Int), c :: rest) := by
    rw [read_cons (isBlank_of_isDigit first) (by simp)]
    exact congrArg _ front
  rw [readFrom, read]
  change ((r.add .day _).bind fun r' => readFrom (.mark '/' :: ps) r' (c :: rest)) = none
  cases r.add .day (Decimal.digitsValue 0 [a, b] : Int) with
  | none => rfl
  | some r' => exact if_neg slash

/-- A pattern that begins with the day of the month takes no text that begins with a year: a sign is no
day, and the third digit of a year no slash. -/
theorem readFrom_day_yearText (y : Int) (rest : List Char) :
    readFrom (.field .day :: .mark '/' :: ps) r ((DateTime.yearText y).toList ++ rest) = none := by
  unfold DateTime.yearText
  dsimp only
  split
  next =>
    rw [String.toList_append]
    exact readFrom_field_none (read_eq_none rfl (by decide) rfl _)
  next =>
    split
    next =>
      rw [String.toList_append]
      exact readFrom_field_none (read_eq_none rfl (by decide) rfl _)
    next =>
      have length : (Decimal.padded 4 y.natAbs).toList.length = 4 :=
        Decimal.length_padded (by decide) (by omega)
      have digits (x : Char) : x ∈ (Decimal.padded 4 y.natAbs).toList → x.isDigit = true :=
        Decimal.isDigit_of_mem_padded
      match (Decimal.padded 4 y.natAbs).toList, length, digits with
      | [a, b, c, d], _, digits =>
        exact readFrom_day_digits (fun x hx => digits x (List.mem_append_left [d] hx)) (d :: rest)

end DatePattern

namespace DateTime

open DatePattern DateField

theorem toList_text (t : DateTime) :
    t.text.toList = (yearText t.date.year).toList ++ '-' :: ((Decimal.padded 2 t.date.month).toList ++
      '-' :: ((Decimal.padded 2 t.date.day).toList ++ ' ' :: ((Decimal.padded 2 t.hour).toList ++
      ':' :: ((Decimal.padded 2 t.minute).toList ++ ':' :: (Decimal.padded 2 t.second).toList)))) := by
  have dash : "-".toList = ['-'] := rfl
  have colon : ":".toList = [':'] := rfl
  have blank : " ".toList = [' '] := rfl
  unfold text
  simp only [String.toList_append, dash, colon, blank, List.append_assoc, List.cons_append, List.nil_append]

/-- A moment of the calendar: a day of it, and a second of the day. -/
structure IsMoment (t : DateTime) : Prop where
  date : t.date.isValid = true
  hour : t.hour < 24
  minute : t.minute < 60
  second : t.second < 60

/-- The numbers that the text of a moment gives, the last one first. -/
def reading (t : DateTime) : DateReading :=
  [(.second, t.second), (.minute, t.minute), (.hour, t.hour), (.day, t.date.day),
    (.month, t.date.month), (.year, t.date.year)]

theorem dateTime_reading {t : DateTime} (h : t.IsMoment) : t.reading.dateTime? = some t := by
  have date : t.reading.date? = some t.date := by
    change (if t.date.isValid = true then some t.date else none) = some t.date
    rw [if_pos h.date]
  have second : (min (t.second : Int) 59).toNat = t.second := by
    have := h.second
    omega
  unfold DateReading.dateTime?
  rw [date]
  change some (⟨t.date, t.hour, t.minute, (min (t.second : Int) 59).toNat⟩ : DateTime) = some t
  rw [second]

theorem readDateTime_text {t : DateTime} (h : t.IsMoment) :
    isoDateTime.readDateTime t.text.toList = some t := by
  obtain ⟨date, hour, minute, second⟩ := h
  have month : DateField.month.admits t.date.month = true := by
    simp [Date.isValid] at date
    simp [DateField.admits]
    omega
  have day : DateField.day.admits t.date.day = true := by
    have := Date.daysInMonth_le t.date.year t.date.month
    simp [Date.isValid] at date
    simp [DateField.admits]
    omega
  have hour' : DateField.hour.admits t.hour = true := by simp [admits]; omega
  have minute' : DateField.minute.admits t.minute = true := by simp [admits]; omega
  have second' : DateField.second.admits t.second = true := by simp [admits]; omega
  have read : isoDateTime.readFrom [] t.text.toList = some t.reading := by
    unfold isoDateTime isoDate clock
    dsimp only [List.cons_append, List.nil_append]
    rw [toList_text, ← List.append_nil (Decimal.padded 2 t.second).toList,
      readFrom_field (read_yearText _ _) rfl rfl, readFrom_mark,
      readFrom_two (by decide) month rfl, readFrom_mark, readFrom_two (by decide) day rfl,
      readFrom_blank, readFrom_two (by decide) hour' rfl, readFrom_mark,
      readFrom_two (by decide) minute' rfl, readFrom_mark, readFrom_two (by decide) second' rfl]
    rfl
  unfold readDateTime
  rw [read]
  exact dateTime_reading ⟨date, hour, minute, second⟩

/-- The patterns that a history time is tried on first begin in this way. -/
theorem readDateTime_day_text (ps : DatePattern) (t : DateTime) :
    readDateTime (.field .day :: .mark '/' :: ps) t.text.toList = none := by
  unfold readDateTime
  rw [toList_text, readFrom_day_yearText]
  rfl

theorem ofSeconds_eq {time : Int} (h : firstSecond ≤ time ∧ time ≤ lastSecond) :
    ofSeconds time =
      ⟨.ofDayNumber (time / 86400), (time % 86400).toNat / 3600, (time % 86400).toNat / 60 % 60,
        (time % 86400).toNat % 60⟩ := by
  have within : withinCalendar time = time := by simp [withinCalendar, h]
  unfold ofSeconds
  rw [within]

theorem isMoment_ofSeconds {time : Int} (h : firstSecond ≤ time ∧ time ≤ lastSecond) :
    (ofSeconds time).IsMoment ∧ (ofSeconds time).toSeconds = time := by
  have ofDay : 0 ≤ time % 86400 ∧ time % 86400 < 86400 := by omega
  rw [ofSeconds_eq h]
  refine ⟨⟨Date.ofDayNumber_isValid (Date.inCalendar_iff.mpr h), ?_, ?_, ?_⟩, ?_⟩
  · dsimp only
    omega
  · dsimp only
    omega
  · dsimp only
    omega
  · unfold toSeconds
    dsimp only
    rw [Date.dayNumber_ofDayNumber]
    omega

theorem yearText_head (y : Int) : ∃ c cs, (yearText y).toList = c :: cs ∧ isBlank c = false := by
  unfold yearText
  dsimp only
  split
  next => exact ⟨'-', _, String.toList_append, rfl⟩
  next =>
    split
    next => exact ⟨'+', _, String.toList_append, rfl⟩
    next =>
      cases h : (Decimal.padded 4 y.natAbs).toList with
      | nil => exact absurd h (Decimal.padded_ne_nil 4 _)
      | cons c cs =>
        exact ⟨c, cs, rfl, isBlank_of_isDigit (Decimal.isDigit_of_mem_padded (h ▸ List.mem_cons_self))⟩

theorem trimBlanks_text (t : DateTime) : trimBlanks t.text.toList = t.text.toList := by
  apply trimBlanks_of_ends
  · obtain ⟨c, cs, head, unblank⟩ := yearText_head t.date.year
    rw [toList_text, head]
    rintro _ ⟨⟩
    exact unblank
  · intro c hc
    have text_eq : ∃ front, t.text.toList = front ++ (Decimal.padded 2 t.second).toList :=
      ⟨_, String.toList_append⟩
    obtain ⟨front, text_eq⟩ := text_eq
    have some : (Decimal.padded 2 t.second).toList.getLast?.isSome := by
      simpa using Decimal.padded_ne_nil 2 t.second
    rw [text_eq, List.getLast?_append, Option.or_of_isSome some] at hc
    exact isBlank_of_isDigit (Decimal.isDigit_of_mem_padded (List.mem_of_getLast? hc))

end DateTime

/-- A timestamp in a year of the calendar is read back from its text, as a boundary of the window and as the
time of a history row. The two patterns that a history time is tried on first do not take the text. -/
theorem timestampText_reads {time : Int} (h : Date.InCalendar (Date.ofDayNumber (time / 86400)).year) :
    readRunDate? (timestampText time) = some time ∧
    readHistoryTime? (timestampText time) = some time ∧
    (DatePattern.shortDate ++ DatePattern.clock).readDateTime (timestampText time).toList = none ∧
    (DatePattern.longDate ++ DatePattern.clock).readDateTime (timestampText time).toList = none := by
  obtain ⟨moment, seconds⟩ := DateTime.isMoment_ofSeconds (Date.inCalendar_iff.mp h)
  have read := DateTime.readDateTime_text moment
  have short : (DatePattern.shortDate ++ DatePattern.clock).readDateTime (timestampText time).toList = none :=
    DateTime.readDateTime_day_text _ _
  have long : (DatePattern.longDate ++ DatePattern.clock).readDateTime (timestampText time).toList = none :=
    DateTime.readDateTime_day_text _ _
  unfold timestampText at short long ⊢
  refine ⟨?_, ?_, short, long⟩
  · unfold readRunDate?
    dsimp only
    rw [DateTime.trimBlanks_text, read]
    exact congrArg some seconds
  · unfold readHistoryTime?
    dsimp only
    rw [DateTime.trimBlanks_text, List.findSome?_cons, short, Option.map_none, List.findSome?_cons, long,
      Option.map_none, List.findSome?_cons, read]
    exact congrArg some seconds

/-- The second before the year zero, and the first and the last second of the calendar. -/
theorem timestampText_reads_at_ends :
    (Date.InCalendar (Date.ofDayNumber (-62167219201 / 86400)).year ∧
      timestampText (-62167219201) = "-0001-12-31 23:59:59" ∧
      readRunDate? "-0001-12-31 23:59:59" = some (-62167219201)) ∧
    (Date.InCalendar (Date.ofDayNumber (-8334601228800 / 86400)).year ∧
      timestampText (-8334601228800) = "-262143-01-01 00:00:00" ∧
      readHistoryTime? "-262143-01-01 00:00:00" = some (-8334601228800)) ∧
    Date.InCalendar (Date.ofDayNumber (8210266876799 / 86400)).year ∧
      timestampText 8210266876799 = "+262142-12-31 23:59:59" ∧
      readHistoryTime? "+262142-12-31 23:59:59" = some 8210266876799 := by
  have before : Date.InCalendar (Date.ofDayNumber (-62167219201 / 86400)).year := by decide
  have first : Date.InCalendar (Date.ofDayNumber (-8334601228800 / 86400)).year := by decide
  have last : Date.InCalendar (Date.ofDayNumber (8210266876799 / 86400)).year := by decide
  have text : timestampText (-62167219201) = "-0001-12-31 23:59:59" := by decide +kernel
  have firstText : timestampText (-8334601228800) = "-262143-01-01 00:00:00" := by decide +kernel
  have lastText : timestampText 8210266876799 = "+262142-12-31 23:59:59" := by decide +kernel
  exact ⟨⟨before, text, text ▸ (timestampText_reads before).1⟩,
    ⟨first, firstText, firstText ▸ (timestampText_reads first).2.1⟩,
    last, lastText, lastText ▸ (timestampText_reads last).2.1⟩

end Backtest
