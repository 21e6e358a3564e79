import Mathlib.Data.List.TakeWhile
import TextTemplate.Calendar.Pattern
import TextTemplate.Calendar.Reading
import TextTemplate.Proofs.Decimal
import TextTemplate.Proofs.Text.Trim

namespace TextTemplate

namespace Decimal

variable {n width : Nat}

theorem zeroPadded_ne_nil (width n : Nat) : zeroPadded width n ≠ [] :=
  List.append_ne_nil_of_right_ne_nil _ (natText_ne_nil n)

theorem isDigit_of_mem_head? (width n : Nat) (rest : List Char) :
    ∀ c ∈ (zeroPadded width n ++ rest).head?, c.isDigit = true := by
  obtain ⟨c, more, hcons⟩ := List.exists_cons_of_ne_nil (zeroPadded_ne_nil width n)
  have hfirst : c ∈ zeroPadded width n := by
    rw [hcons]
    exact List.mem_cons_self
  rw [hcons]
  intro first h
  obtain rfl := Option.some.inj h
  exact isDigit_of_mem_zeroPadded hfirst

end Decimal

namespace Calendar

open Decimal (zeroPadded)

variable {n width : Nat} {rest : List Char}

/-- Two digits hold every month. -/
theorem Date.month_lt (d : Date) : d.month < 100 := by
  have hmonth := d.month_range
  omega

theorem Date.day_lt (d : Date) : d.day < 100 := by
  have hday := d.day_range
  have hlength : monthLength d.year d.month ≤ 31 := by
    unfold monthLength
    split
    · split <;> omega
    all_goals omega
  omega

theorem TimeOfDay.clock_lt (t : TimeOfDay) : t.hour < 100 ∧ t.minute < 100 ∧ t.second < 100 := by
  have hhour := t.hour_range
  have hminute := t.minute_range
  have hsecond := t.second_range
  omega

namespace Pattern

/-- Year, month and day. -/
def dayText (d : Date) : List Char :=
  yearText .zeros d.year ++ '-' :: (twoPlaces .zeros d.month ++ '-' :: twoPlaces .zeros d.day)

/-- Hour, minute and second. -/
def clockText (t : TimeOfDay) : List Char :=
  twoPlaces .zeros t.hour ++ ':' :: (twoPlaces .zeros t.minute ++ ':' :: twoPlaces .zeros t.second)

theorem write?_append {p q : Pattern} {d : DateTime} {cs cs' : List Char} (hp : write? p d = some cs)
    (hq : write? q d = some cs') : write? (p ++ q) d = some (cs ++ cs') := by
  induction p generalizing cs with
  | nil =>
    obtain rfl := Option.some.inj hp
    exact hq
  | cons item rest ih =>
    simp only [write?, Option.bind_eq_bind, Option.bind_eq_some_iff, Option.pure_def, Option.some.injEq] at hp
    obtain ⟨text, htext, more, hmore, rfl⟩ := hp
    rw [List.cons_append, write?, htext, ih hmore, List.append_assoc]
    rfl

theorem write?_isoDate (d : DateTime) : write? PatternItem.isoDate d = some (dayText d.date) := by
  simp [write?, PatternItem.isoDate, itemText?, fieldText, dayText]

theorem write?_clock (d : DateTime) : write? PatternItem.clock d = some (clockText d.time) := by
  simp [write?, PatternItem.clock, PatternItem.hourMinute, itemText?, fieldText, clockText]

/-- The tens are counted on from the character of zero, as digits are. -/
theorem twoPlaces_zeros (h : n < 100) : twoPlaces .zeros n = zeroPadded 2 n := by
  have htens : n / 10 < 10 := by omega
  have hcount : ∀ k < 10, k ≠ 0 → Char.ofNat ('0'.toNat + k) = k.digitChar := by decide
  rw [Decimal.zeroPadded_succ (by decide), Decimal.zeroPadded_one, Decimal.natText_of_lt htens, twoPlaces]
  split
  case isTrue hzero =>
    rw [hzero]
    rfl
  case isFalse hzero => rw [hcount _ htens hzero]

theorem yearText_zeros (year : Int) :
    (0 ≤ year ∧ year ≤ 9999 ∧ yearText .zeros year = zeroPadded 4 year.toNat) ∨
      (year < 0 ∧ yearText .zeros year = '-' :: zeroPadded 4 year.natAbs) ∨
      (9999 < year ∧ yearText .zeros year = '+' :: zeroPadded 4 year.natAbs) := by
  unfold yearText
  split
  case isTrue hshort =>
    simp only [Bool.and_eq_true, decide_eq_true_eq] at hshort
    exact .inl ⟨hshort.1, hshort.2, rfl⟩
  case isFalse hlong =>
    simp only [Bool.and_eq_true, decide_eq_true_eq] at hlong
    rcases Int.lt_or_le year 0 with hneg | hnonneg
    · rw [if_pos hneg]
      exact .inr (.inl ⟨hneg, rfl⟩)
    · rw [if_neg (Int.not_lt.mpr hnonneg)]
      exact .inr (.inr ⟨by omega, rfl⟩)

theorem isDigit_of_mem_twoPlaces {c : Char} (h : n < 100) (hc : c ∈ twoPlaces .zeros n) : c.isDigit = true := by
  rw [twoPlaces_zeros h] at hc
  exact Decimal.isDigit_of_mem_zeroPadded hc

theorem mem_yearText {c : Char} {year : Int} (hc : c ∈ yearText .zeros year) :
    c.isDigit = true ∨ c = '-' ∨ c = '+' := by
  rcases yearText_zeros year with ⟨-, -, htext⟩ | ⟨-, htext⟩ | ⟨-, htext⟩ <;> rw [htext] at hc
  · exact .inl (Decimal.isDigit_of_mem_zeroPadded hc)
  · rcases List.mem_cons.mp hc with rfl | hc
    · exact .inr (.inl rfl)
    · exact .inl (Decimal.isDigit_of_mem_zeroPadded hc)
  · rcases List.mem_cons.mp hc with rfl | hc
    · exact .inr (.inr rfl)
    · exact .inl (Decimal.isDigit_of_mem_zeroPadded hc)

theorem mem_dayText {c : Char} {d : Date} (hc : c ∈ dayText d) : c.isDigit = true ∨ c = '-' ∨ c = '+' := by
  have hmonth := d.month_lt
  have hday := d.day_lt
  rw [dayText, List.mem_append, List.mem_cons, List.mem_append, List.mem_cons] at hc
  rcases hc with hyear | rfl | hmonth' | rfl | hday'
  · exact mem_yearText hyear
  · exact .inr (.inl rfl)
  · exact .inl (isDigit_of_mem_twoPlaces hmonth hmonth')
  · exact .inr (.inl rfl)
  · exact .inl (isDigit_of_mem_twoPlaces hday hday')

theorem mem_clockText {c : Char} {t : TimeOfDay} (hc : c ∈ clockText t) : c.isDigit = true ∨ c = ':' := by
  obtain ⟨hhour, hminute, hsecond⟩ := t.clock_lt
  rw [clockText, List.mem_append, List.mem_cons, List.mem_append, List.mem_cons] at hc
  rcases hc with hhour' | rfl | hminute' | rfl | hsecond'
  · exact .inl (isDigit_of_mem_twoPlaces hhour hhour')
  · exact .inr rfl
  · exact .inl (isDigit_of_mem_twoPlaces hminute hminute')
  · exact .inr rfl
  · exact .inl (isDigit_of_mem_twoPlaces hsecond hsecond')

end Pattern

namespace Reading

open Pattern

theorem trimStart_of_head? {cs : List Char} (h : ∀ c ∈ cs.head?, Text.isBlank c = false) : Text.trimStart cs = cs :=
  @Text.trimStart_append [] cs (by simp) h

theorem digits?_zeroPadded (hwidth : 0 < width) (h : n < 10 ^ width) :
    digits? width (zeroPadded width n ++ rest) = some (n, rest) := by
  have hlength := Decimal.length_zeroPadded hwidth h
  have htake : (zeroPadded width n ++ rest).take width = zeroPadded width n := List.take_left' hlength
  have hall : (zeroPadded width n).takeWhile Char.isDigit = zeroPadded width n :=
    List.takeWhile_eq_self_iff.mpr fun c => Decimal.isDigit_of_mem_zeroPadded
  rw [digits?, htake, hall, if_pos hlength, Decimal.ofDigitChars_zeroPadded, List.drop_left' hlength]

theorem number?_eq_digits? {cs : List Char} {found : Nat × List Char} (hwidth : 0 < width)
    (h : digits? width cs = some found) : number? width cs = some found := by
  rw [digits?] at h
  split at h
  case isFalse => cases h
  case isTrue hlength =>
    have hsome : ((cs.take width).takeWhile Char.isDigit).isEmpty = false := by
      rw [List.isEmpty_eq_false_iff, ← List.length_pos_iff, hlength]
      exact hwidth
    rw [number?, hsome, hlength]
    exact h

theorem allDigits?_zeroPadded (hrest : ∀ c ∈ rest.head?, c.isDigit = false) :
    allDigits? (zeroPadded width n ++ rest) = some (n, rest) := by
  obtain ⟨htake, hdrop⟩ := Text.run_append (fun c => @Decimal.isDigit_of_mem_zeroPadded c n width) hrest
  have hsome : (zeroPadded width n).isEmpty = false := List.isEmpty_eq_false_iff.mpr (Decimal.zeroPadded_ne_nil width n)
  rw [allDigits?, htake, hdrop, hsome, if_neg Bool.false_ne_true, Decimal.ofDigitChars_zeroPadded]

theorem pair?_twoPlaces (h : n < 100) : pair? (twoPlaces .zeros n ++ rest) = some (n, rest) := by
  have hblank : ∀ c ∈ (zeroPadded 2 n ++ rest).head?, Text.isBlank c = false :=
    fun c hc => Text.isBlank_eq_false_of_isDigit (Decimal.isDigit_of_mem_head? 2 n rest c hc)
  rw [twoPlaces_zeros h, pair?, trimStart_of_head? hblank]
  exact number?_eq_digits? (by decide) (digits?_zeroPadded (by decide) h)

theorem digits?_twoPlaces (h : n < 100) : digits? 2 (twoPlaces .zeros n ++ rest) = some (n, rest) := by
  rw [twoPlaces_zeros h]
  exact digits?_zeroPadded (by decide) h

theorem year?_minus (cs : List Char) : year? ('-' :: cs) = (allDigits? cs).map fun (n, r) => (-(n : Int), r) :=
  rfl

theorem year?_plus (cs : List Char) : year? ('+' :: cs) = (allDigits? cs).map fun (n, r) => ((n : Int), r) :=
  rfl

/-- A year is read with its sign. -/
theorem year?_yearText (year : Int) (hrest : ∀ c ∈ rest.head?, c.isDigit = false) :
    year? (yearText .zeros year ++ rest) = some (year, rest) := by
  have hread : allDigits? (zeroPadded 4 year.natAbs ++ rest) = some (year.natAbs, rest) := allDigits?_zeroPadded hrest
  rcases yearText_zeros year with ⟨hlow, hhigh, htext⟩ | ⟨hneg, htext⟩ | ⟨hlarge, htext⟩
  · have hdigit := Decimal.isDigit_of_mem_head? 4 year.toNat rest
    have htrim : Text.trimStart (zeroPadded 4 year.toNat ++ rest) = zeroPadded 4 year.toNat ++ rest :=
      trimStart_of_head? fun c hc => Text.isBlank_eq_false_of_isDigit (hdigit c hc)
    have hread : number? 4 (zeroPadded 4 year.toNat ++ rest) = some (year.toNat, rest) :=
      number?_eq_digits? (by decide) (digits?_zeroPadded (by decide) (by omega))
    rw [htext, year?, htrim]
    split
    case h_1 heq =>
      rw [heq] at hdigit
      exact absurd (hdigit '-' rfl) (by decide)
    case h_2 heq =>
      rw [heq] at hdigit
      exact absurd (hdigit '+' rfl) (by decide)
    case h_3 =>
      rw [hread, Option.map_some]
      dsimp only
      rw [Int.toNat_of_nonneg hlow]
  · have hvalue : -(year.natAbs : Int) = year := by omega
    rw [htext, List.cons_append, year?_minus, hread, Option.map_some]
    dsimp only
    rw [hvalue]
  · have hvalue : (year.natAbs : Int) = year := by omega
    rw [htext, List.cons_append, year?_plus, hread, Option.map_some]
    dsimp only
    rw [hvalue]

theorem ofYearMonthDay?_eq (d : Date) : Date.ofYearMonthDay? d.year d.month d.day = some d :=
  dif_pos ⟨d.year_range, d.month_range, d.day_range⟩

theorem ofClock?_eq (t : TimeOfDay) : TimeOfDay.ofClock? t.hour t.minute t.second t.nanosecond = some t :=
  dif_pos ⟨t.hour_range, t.minute_range, t.second_range, t.nanosecond_range⟩

theorem char?_cons (c : Char) (rest : List Char) : char? c (c :: rest) = some rest :=
  if_pos rfl

theorem char?_of_ne {c c' : Char} (h : c' ≠ c) : char? c (c' :: rest) = none :=
  if_neg h

/-- A day is read as it is written, whatever follows. -/
theorem date?_dayText (d : Date) (rest : List Char) : date? (dayText d ++ rest) = some (d, rest) := by
  -- Only the year has no width of its own, and its digits end at the dash.
  have hyear : ∀ more, year? (yearText .zeros d.year ++ '-' :: more) = some (d.year, '-' :: more) := by
    intro more
    apply year?_yearText
    intro c hc
    obtain rfl := Option.some.inj hc
    rfl
  rw [date?, dayText, List.append_assoc, List.cons_append, List.append_assoc, List.cons_append, hyear]
  simp only [char?_cons, pair?_twoPlaces d.month_lt, pair?_twoPlaces d.day_lt, ofYearMonthDay?_eq, Option.bind_eq_bind,
    Option.bind_some, Option.pure_def]

/-- A clock is read as it is written, whatever follows. -/
theorem clock?_clockText (t : TimeOfDay) (hwhole : t.nanosecond = 0) (rest : List Char) :
    clock? (clockText t ++ rest) = some (t, rest) := by
  obtain ⟨hhour, hminute, hsecond⟩ := t.clock_lt
  have htime := ofClock?_eq t
  rw [hwhole] at htime
  rw [clock?, clockText, List.append_assoc, List.cons_append, List.append_assoc, List.cons_append]
  simp only [char?_cons, pair?_twoPlaces hhour, pair?_twoPlaces hminute, pair?_twoPlaces hsecond, htime,
    Option.bind_eq_bind, Option.bind_some, Option.pure_def]

end Reading

end Calendar

end TextTemplate
