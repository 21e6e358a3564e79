import Mathlib.Data.List.Basic
import TextTemplate.Filter.Builtin
import TextTemplate.Proofs.Calendar.Fields

namespace TextTemplate

namespace Calendar.Reading

open Pattern
open Decimal (zeroPadded)

/-- What may stand behind a clock: `Z`, or a sign with hours and minutes. -/
inductive IsOffset : List Char → Prop
  | zulu : IsOffset ['Z']
  | apart {sign : Char} {hours minutes : Nat} (hsign : sign = '+' ∨ sign = '-') (hhours : hours ≤ 23)
    (hminutes : minutes ≤ 59) : IsOffset (sign :: (zeroPadded 2 hours ++ ':' :: zeroPadded 2 minutes))

section Offset

variable {offset : List Char}

theorem IsOffset.ne_nil (h : IsOffset offset) : offset ≠ [] := by
  cases h <;> exact List.cons_ne_nil _ _

theorem IsOffset.isBlank_eq_false (h : IsOffset offset) : ∀ c ∈ offset, Text.isBlank c = false := by
  intro c hc
  cases h with
  | zulu =>
    obtain rfl := List.mem_singleton.mp hc
    rfl
  | apart hsign _ _ =>
    rw [List.mem_cons, List.mem_append, List.mem_cons] at hc
    rcases hc with rfl | hhours | rfl | hminutes
    · rcases hsign with rfl | rfl <;> rfl
    · exact Text.isBlank_eq_false_of_isDigit (Decimal.isDigit_of_mem_zeroPadded hhours)
    · rfl
    · exact Text.isBlank_eq_false_of_isDigit (Decimal.isDigit_of_mem_zeroPadded hminutes)

/-- An offset is no fraction of a second. -/
theorem IsOffset.fraction? (h : IsOffset offset) : Reading.fraction? offset = some (0, offset) := by
  cases h with
  | zulu => rfl
  | apart hsign _ _ => rcases hsign with rfl | rfl <;> rfl

theorem IsOffset.offset? (h : IsOffset offset) : Reading.offset? offset = some () := by
  cases h with
  | zulu => rfl
  | @apart sign hours minutes hsign hhours hminutes =>
    have hread : digits? 2 (zeroPadded 2 hours ++ ':' :: zeroPadded 2 minutes) =
        some (hours, ':' :: zeroPadded 2 minutes) := digits?_zeroPadded (by decide) (by omega)
    have hread' : digits? 2 (zeroPadded 2 minutes ++ []) = some (minutes, []) :=
      digits?_zeroPadded (by decide) (by omega)
    rw [List.append_nil] at hread'
    have hsigns : sign = '+' ∨ sign = '-' ∨ sign = '\u2212' := hsign.imp_right .inl
    have hranges : hours ≤ 23 ∧ minutes ≤ 59 ∧ ([] : List Char).isEmpty = true := ⟨hhours, hminutes, rfl⟩
    unfold Reading.offset?
    split
    case h_1 heq =>
      have hlength := congrArg List.length heq
      simp at hlength
    case h_2 heq =>
      have hlength := congrArg List.length heq
      simp at hlength
    case h_3 sign' rest _ _ heq =>
      obtain ⟨rfl, rfl⟩ := List.cons.inj heq
      rw [if_pos hsigns]
      simp only [hread, hread', char?_cons, if_pos hranges, Option.bind_eq_bind, Option.bind_some]
    case h_4 heq => cases heq

end Offset

section Blank

variable {c : Char}

theorem isBlank_of_digit_or_sign (h : c.isDigit = true ∨ c = '-' ∨ c = '+') : Text.isBlank c = false := by
  rcases h with hdigit | rfl | rfl
  · exact Text.isBlank_eq_false_of_isDigit hdigit
  · rfl
  · rfl

theorem isBlank_of_mem_clockText {t : TimeOfDay} (hc : c ∈ clockText t) : Text.isBlank c = false := by
  rcases mem_clockText hc with hdigit | rfl
  · exact Text.isBlank_eq_false_of_isDigit hdigit
  · rfl

end Blank

section Forms

variable {d : DateTime} {c : Char} {rest : List Char}

theorem day?_dayText (d : Date) : day? (dayText d) = some ⟨d, TimeOfDay.midnight⟩ := by
  have hdate := date?_dayText d []
  rw [List.append_nil] at hdate
  rw [day?, hdate]
  rfl

theorem day?_of_cons (d : Date) (c : Char) (rest : List Char) : day? (dayText d ++ c :: rest) = none := by
  rw [day?, date?_dayText]
  rfl

theorem joined?_clockText (hwhole : d.time.nanosecond = 0) :
    joined? (dayText d.date ++ 'T' :: clockText d.time) = some d := by
  have hclock := clock?_clockText d.time hwhole []
  rw [List.append_nil] at hclock
  simp only [joined?, date?_dayText, char?_cons, hclock, complete?, Option.bind_eq_bind, Option.bind_some,
    Option.pure_def]

theorem joined?_of_cons (hwhole : d.time.nanosecond = 0) :
    joined? (dayText d.date ++ 'T' :: (clockText d.time ++ c :: rest)) = none := by
  simp only [joined?, date?_dayText, char?_cons, clock?_clockText d.time hwhole, complete?, Option.bind_eq_bind,
    Option.bind_some, Option.bind_none]

theorem joined?_of_ne (h : c ≠ 'T') : joined? (dayText d.date ++ c :: rest) = none := by
  simp only [joined?, date?_dayText, char?_of_ne h, Option.bind_eq_bind, Option.bind_some, Option.bind_none]

theorem spaced?_clockText (hwhole : d.time.nanosecond = 0) :
    spaced? (dayText d.date ++ ' ' :: clockText d.time) = some d := by
  have hclock := clock?_clockText d.time hwhole []
  rw [List.append_nil] at hclock
  have htrim : Text.trimStart (' ' :: clockText d.time) = clockText d.time := by
    have hspace : ∀ c ∈ [' '], Text.isBlank c = true := by simp [Text.isBlank]
    exact Text.trimStart_append hspace fun c hc => isBlank_of_mem_clockText (List.mem_of_mem_head? hc)
  simp only [spaced?, date?_dayText, htrim, hclock, complete?, Option.bind_eq_bind, Option.bind_some, Option.pure_def]

/-- No clock begins with a letter. -/
theorem spaced?_letter : spaced? (dayText d.date ++ 'T' :: rest) = none := by
  have hclock : clock? (Text.trimStart ('T' :: rest)) = none := rfl
  simp only [spaced?, date?_dayText, hclock, Option.bind_eq_bind, Option.bind_some, Option.bind_none]

theorem internet?_offset {offset : List Char} (hwhole : d.time.nanosecond = 0) (hlow : 0 ≤ d.date.year)
    (hhigh : d.date.year ≤ 9999) (hoffset : IsOffset offset) :
    internet? (dayText d.date ++ 'T' :: (clockText d.time ++ offset)) = some d := by
  obtain ⟨hhour, hminute, hsecond⟩ := d.time.clock_lt
  have hyear : ∀ more, digits? 4 (yearText .zeros d.date.year ++ more) = some (d.date.year.toNat, more) := by
    intro more
    rcases yearText_zeros d.date.year with ⟨-, -, htext⟩ | ⟨hneg, -⟩ | ⟨hlarge, -⟩
    · rw [htext]
      exact digits?_zeroPadded (by decide) (by omega)
    · omega
    · omega
  have hvalue : (d.date.year.toNat : Int) = d.date.year := Int.toNat_of_nonneg hlow
  have htime := ofClock?_eq d.time
  rw [hwhole] at htime
  rw [dayText, clockText, List.append_assoc, List.cons_append, List.append_assoc, List.cons_append, List.append_assoc,
    List.cons_append, List.append_assoc, List.cons_append]
  rw [internet?, hyear]
  dsimp only [Option.bind_eq_bind, Option.bind_some]
  rw [char?_cons, Option.bind_some, digits?_twoPlaces d.date.month_lt, Option.bind_some, char?_cons, Option.bind_some,
    digits?_twoPlaces d.date.day_lt, Option.bind_some, char?_cons, Option.some_or, Option.bind_some]
  rw [digits?_twoPlaces hhour, Option.bind_some, char?_cons, Option.bind_some, digits?_twoPlaces hminute,
    Option.bind_some, char?_cons, Option.bind_some, digits?_twoPlaces hsecond, Option.bind_some]
  rw [hoffset.fraction?, Option.bind_some, hoffset.offset?, Option.bind_some, hvalue, ofYearMonthDay?_eq,
    Option.bind_some, htime]
  rfl

end Forms

section Written

variable {d : DateTime} {cs : List Char}

/-- A text without white space at its ends that begins with a day and is read as a date-time. -/
structure Writes (d : DateTime) (cs : List Char) : Prop where
  reads : dateTime? cs = some d
  first : ∀ c ∈ cs.head?, c.isDigit = true ∨ c = '-' ∨ c = '+'
  last : ∀ c ∈ cs.getLast?, Text.isBlank c = false

theorem dayText_ne_nil (d : Date) : dayText d ≠ [] := by
  simp [dayText]

theorem clockText_ne_nil (t : TimeOfDay) : clockText t ≠ [] := by
  simp [clockText]

theorem first_dayText (d : Date) (rest : List Char) :
    ∀ c ∈ (dayText d ++ rest).head?, c.isDigit = true ∨ c = '-' ∨ c = '+' := by
  intro c hc
  rw [List.head?_append_of_ne_nil _ (dayText_ne_nil d)] at hc
  exact mem_dayText (List.mem_of_mem_head? hc)

theorem writes_dayText (hmidnight : d.time = TimeOfDay.midnight) : Writes d (dayText d.date) := by
  refine ⟨?_, ?_, fun c hc => isBlank_of_digit_or_sign (mem_dayText (List.mem_of_mem_getLast? hc))⟩
  · rw [dateTime?, day?_dayText, ← hmidnight, Option.some_or]
  · have hfirst := first_dayText d.date []
    rwa [List.append_nil] at hfirst

theorem last_clockText (front : List Char) (t : TimeOfDay) :
    ∀ c ∈ (front ++ clockText t).getLast?, Text.isBlank c = false := by
  intro c hc
  rw [List.getLast?_append_of_ne_nil _ (clockText_ne_nil t)] at hc
  exact isBlank_of_mem_clockText (List.mem_of_mem_getLast? hc)

theorem writes_joined (hwhole : d.time.nanosecond = 0) : Writes d (dayText d.date ++ 'T' :: clockText d.time) := by
  refine ⟨?_, first_dayText _ _, ?_⟩
  · rw [dateTime?, day?_of_cons, joined?_clockText hwhole, Option.none_or, Option.some_or]
  · rw [List.append_cons]
    exact last_clockText _ _

theorem writes_spaced (hwhole : d.time.nanosecond = 0) : Writes d (dayText d.date ++ ' ' :: clockText d.time) := by
  refine ⟨?_, first_dayText _ _, ?_⟩
  · rw [dateTime?, day?_of_cons, joined?_of_ne (by decide), spaced?_clockText hwhole, Option.none_or, Option.none_or,
      Option.some_or]
  · rw [List.append_cons]
    exact last_clockText _ _

theorem writes_internet {offset : List Char} (hwhole : d.time.nanosecond = 0) (hlow : 0 ≤ d.date.year)
    (hhigh : d.date.year ≤ 9999) (hoffset : IsOffset offset) :
    Writes d (dayText d.date ++ 'T' :: (clockText d.time ++ offset)) := by
  refine ⟨?_, first_dayText _ _, ?_⟩
  · have hread := internet?_offset hwhole hlow hhigh hoffset
    obtain ⟨c, rest, rfl⟩ := List.exists_cons_of_ne_nil hoffset.ne_nil
    rw [dateTime?, day?_of_cons, joined?_of_cons hwhole, spaced?_letter, hread, Option.none_or, Option.none_or,
      Option.none_or]
  · intro c hc
    rw [List.append_cons, ← List.append_assoc, List.getLast?_append_of_ne_nil _ hoffset.ne_nil] at hc
    exact hoffset.isBlank_eq_false c (List.mem_of_mem_getLast? hc)

end Written

end Calendar.Reading

namespace Filter

open Calendar
open Calendar.Reading (IsOffset Writes)
open Calendar.Pattern (dayText clockText)

variable {now d : DateTime} {cs : List Char}

/-- Whatever white space stands around it, the text is taken as this date-time: every pattern writes the same for both,
or fails on both in the same way. -/
def IsTakenAs (now : DateTime) (written : String) (d : DateTime) : Prop :=
  ∀ front back : String, (∀ c ∈ front.toList, Text.isBlank c = true) → (∀ c ∈ back.toList, Text.isBlank c = true) →
    ∀ pattern, date now (.string (front ++ written ++ back)) [.string pattern] =
      date now (.date d) [.string pattern]

theorem toLower_of_isDigit {c : Char} (h : c.isDigit = true) : c.toLower = c := by
  have hdigit : c.val ≤ '9'.val := by
    rw [Char.isDigit, Bool.and_eq_true, decide_eq_true_iff, decide_eq_true_iff] at h
    exact h.2
  apply dif_neg
  rintro ⟨hletter, -⟩
  exact absurd (UInt32.le_trans hletter hdigit) (by decide)

/-- The words for the time of the render begin with letters. -/
theorem meansNow_of_first (h : ∀ c ∈ cs.head?, c.isDigit = true ∨ c = '-' ∨ c = '+') : meansNow cs = false := by
  cases cs with
  | nil => rfl
  | cons c rest =>
    have hlower : c.toLower ≠ 'n' ∧ c.toLower ≠ 't' := by
      rcases h c rfl with hdigit | rfl | rfl
      · rw [toLower_of_isDigit hdigit]
        constructor <;> rintro rfl <;> exact absurd hdigit (by decide)
      · decide
      · decide
    simp [meansNow, hlower.1, hlower.2]

theorem isTakenAs_of_writes (h : Writes d cs) : IsTakenAs now (String.ofList cs) d := by
  intro front back hfront hback pattern
  have hhead : ∀ c ∈ cs.head?, Text.isBlank c = false := fun c hc => Reading.isBlank_of_digit_or_sign (h.first c hc)
  have htrim := Text.trim_append hfront hback hhead h.last
  have hdate : asDate? now (.string (front ++ String.ofList cs ++ back)) = some d := by
    rw [asDate?, String.toList_append, String.toList_append, String.toList_ofList, htrim, meansNow_of_first h.first,
      if_neg Bool.false_ne_true, h.reads]
  have hsame : asDate? now (.date d) = some d := rfl
  simp only [date, withArgument, hdate, hsame]

/-- A pattern with its text writes what it is taken for. -/
theorem date_of_write? {pattern : String} {items : Pattern} (hread : Pattern.read? pattern.toList = some items)
    (hwrite : Pattern.write? items d = some cs) :
    date now (.date d) [.string pattern] = .ok (.string (String.ofList cs)) := by
  have hdate : asDate? now (.date d) = some d := rfl
  simp only [date, withArgument, hdate, writeDate, hread, hwrite]

theorem text_of_midnight (h : d.time = TimeOfDay.midnight) : (Value.date d).text = String.ofList (dayText d.date) := by
  rw [Value.text, DateTime.text, if_pos h, Pattern.write?_isoDate, Option.getD_some]

theorem text_of_clock (h : d.time ≠ TimeOfDay.midnight) :
    (Value.date d).text = String.ofList (dayText d.date ++ ' ' :: clockText d.time) := by
  have hspace : Pattern.write? [.literal ' '] d = some [' '] := rfl
  have hday := Pattern.write?_append (Pattern.write?_isoDate d) hspace
  have hwrite := Pattern.write?_append hday (Pattern.write?_clock d)
  rw [Value.text, DateTime.text, if_neg h, hwrite, Option.getD_some,
    List.append_cons (dayText d.date) ' ' (clockText d.time)]

/-- A date-time of whole seconds survives being written: as it is printed, with its clock behind a `T` or a space, and
in the years of four digits with any offset, which does not shift it. -/
theorem written_dates_come_back (now d : DateTime) (hwhole : d.time.nanosecond = 0) :
    ∃ joined spaced,
      date now (.date d) [.string "%Y-%m-%dT%H:%M:%S"] = .ok (.string joined) ∧
      date now (.date d) [.string "%Y-%m-%d %H:%M:%S"] = .ok (.string spaced) ∧
      IsTakenAs now (Value.date d).text d ∧ IsTakenAs now joined d ∧ IsTakenAs now spaced d ∧
      (0 ≤ d.date.year → d.date.year ≤ 9999 → ∀ offset : String, IsOffset offset.toList →
        IsTakenAs now (joined ++ offset) d) := by
  have hjoined := Reading.writes_joined hwhole
  have hspaced := Reading.writes_spaced hwhole
  have hwrite {c : Char} : Pattern.write? (PatternItem.isoDate ++ ([.literal c] ++ PatternItem.clock)) d =
      some (dayText d.date ++ ([c] ++ clockText d.time)) :=
    Pattern.write?_append (Pattern.write?_isoDate d) (Pattern.write?_append rfl (Pattern.write?_clock d))
  refine ⟨_, _, date_of_write? (by rfl) (hwrite (c := 'T')), date_of_write? (by rfl) (hwrite (c := ' ')), ?_, ?_,
    ?_, ?_⟩
  · by_cases hmidnight : d.time = TimeOfDay.midnight
    · rw [text_of_midnight hmidnight]
      exact isTakenAs_of_writes (Reading.writes_dayText hmidnight)
    · rw [text_of_clock hmidnight]
      exact isTakenAs_of_writes hspaced
  · exact isTakenAs_of_writes hjoined
  · exact isTakenAs_of_writes hspaced
  · intro hlow hhigh offset hoffset
    have hinternet := Reading.writes_internet hwhole hlow hhigh hoffset
    rw [← List.cons_append, ← List.append_assoc] at hinternet
    rw [← String.ofList_toList (s := offset), ← String.ofList_append]
    exact isTakenAs_of_writes hinternet

/-- Two hours ahead, a tab in front and a line break behind. -/
theorem written_dates_come_back_ahead :
    let d : DateTime := ⟨⟨2025, 9, 30, by decide, by decide, by decide⟩,
      ⟨14, 5, 0, 0, by decide, by decide, by decide, by decide⟩⟩
    d.time.nanosecond = 0 ∧ (date d (.date d) [.string "%d.%m.%Y %H:%M"]).map Value.text = .ok "30.09.2025 14:05" ∧
      date d (.string "\t2025-09-30T14:05:00+02:00\n") [.string "%d.%m.%Y %H:%M"] =
        date d (.date d) [.string "%d.%m.%Y %H:%M"] := by
  intro d
  obtain ⟨joined, spaced, hjoined, -, -, -, -, htaken⟩ := written_dates_come_back d d rfl
  have hwritten : (date d (.date d) [.string "%Y-%m-%dT%H:%M:%S"]).map Value.text = .ok "2025-09-30T14:05:00" := by
    decide +kernel
  rw [hjoined] at hwritten
  obtain rfl : joined = "2025-09-30T14:05:00" := Except.ok.inj hwritten
  have hoffset : IsOffset ('+' :: (Decimal.zeroPadded 2 2 ++ ':' :: Decimal.zeroPadded 2 0)) :=
    .apart (.inl rfl) (by decide) (by decide)
  have htab : ∀ c ∈ "\t".toList, Text.isBlank c = true := by simp [Text.isBlank]
  have hbreak : ∀ c ∈ "\n".toList, Text.isBlank c = true := by simp [Text.isBlank]
  exact ⟨rfl, by decide +kernel, htaken (by decide) (by decide) "+02:00" hoffset "\t" "\n" htab hbreak _⟩

end Filter

end TextTemplate
