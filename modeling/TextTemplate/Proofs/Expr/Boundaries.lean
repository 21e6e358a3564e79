import TextTemplate.Proofs.Expr.TokenRun
import TextTemplate.Proofs.Text.Trim

namespace TextTemplate

namespace Text

variable {c : Char}

theorem isBlank_cases (h : isBlank c = true) :
    (9 ≤ c.toNat ∧ c.toNat ≤ 13) ∨ c.toNat = 0x20 ∨ c.toNat = 0x85 ∨ c.toNat = 0xA0 ∨ c.toNat = 0x1680 ∨
      (0x2000 ≤ c.toNat ∧ c.toNat ≤ 0x200A) ∨ c.toNat = 0x2028 ∨ c.toNat = 0x2029 ∨ c.toNat = 0x202F ∨
      c.toNat = 0x205F ∨ c.toNat = 0x3000 := by
  simpa [isBlank, or_assoc] using h

/-- White space beyond ASCII, as ranges of code points. -/
def wideBlanks : List (Nat × Nat) :=
  [(0x85, 0x85), (0xA0, 0xA0), (0x1680, 0x1680), (0x2000, 0x200A), (0x2028, 0x2029), (0x202F, 0x202F),
    (0x205F, 0x205F), (0x3000, 0x3000)]

theorem wideBlanks_apart : ∀ b ∈ wideBlanks, ∀ r ∈ Word.ranges, r.2 < b.1 ∨ b.2 < r.1 := by
  have hall : (wideBlanks.all fun b => Word.ranges.all fun r => r.2.blt b.1 || b.2.blt r.1) = true := by
    decide +kernel
  simpa only [List.all_eq_true, Bool.or_eq_true, Nat.blt_eq] using hall

theorem inRanges_eq_false_of_wideBlanks {n : Nat} {b : Nat × Nat} (hb : b ∈ wideBlanks) (h : b.1 ≤ n ∧ n ≤ b.2) :
    inRanges Word.ranges n = false := by
  rw [inRanges, List.any_eq_false]
  intro r hr
  have hapart := wideBlanks_apart b hb r hr
  simp only [Bool.and_eq_true, decide_eq_true_eq]
  omega

/-- No name goes on with white space, in any script. -/
theorem continuesName_eq_false_of_isBlank (h : isBlank c = true) : continuesName c = false := by
  have hcases := isBlank_cases h
  have halphanum : c.isAlphanum = false := by
    delta Char.isAlphanum Char.isAlpha Char.isUpper Char.isLower Char.isDigit
    simp only [UInt32.le_iff_toNat_le, ge_iff_le, Bool.or_eq_false_iff, Bool.and_eq_false_iff,
      decide_eq_false_iff_not]
    change (¬(65 ≤ c.toNat ∧ c.toNat ≤ 90) ∧ (¬97 ≤ c.toNat ∨ ¬c.toNat ≤ 122)) ∧ (¬48 ≤ c.toNat ∨ ¬c.toNat ≤ 57)
    omega
  have hunderscore : c ≠ '_' := by
    rintro rfl
    cases h
  have hscripts : 128 ≤ c.toNat → inRanges Word.ranges c.toNat = false := by
    intro hwide
    have hmem : ∃ b ∈ wideBlanks, b.1 ≤ c.toNat ∧ c.toNat ≤ b.2 := by
      simp only [wideBlanks, List.mem_cons, List.not_mem_nil, or_false, exists_eq_or_imp, exists_eq_left]
      omega
    obtain ⟨b, hb, hin⟩ := hmem
    exact inRanges_eq_false_of_wideBlanks hb hin
  simpa [continuesName, halphanum, hunderscore] using hscripts

end Text

/-- What stands behind a cut is as it was as far as the lexer sees it, or sets the text in front of it apart. -/
def Token.Apart (behind behind' : List Char) : Prop :=
  ∀ d ∈ behind'.head?, Text.isBlank d = true ∨ d ∈ behind.head?

namespace Token

open Piece (isQuote)

variable {c : Char} {tail behind behind' : List Char} {l : Lexeme}

theorem apart_nil (behind : List Char) : Apart behind [] :=
  fun d hd => absurd hd (by simp)

theorem apart_of_blank {d : Char} {more : List Char} (hd : Text.isBlank d = true) (behind : List Char) :
    Apart behind (d :: more) := by
  intro e he
  cases he
  exact .inl hd

/-- A longer text set apart in the same way begins alike. -/
theorem Apart.append (h : Apart behind behind') (front : List Char) :
    Apart (front ++ behind) (front ++ behind') := by
  cases front with
  | nil => exact h
  | cons e front => exact fun d hd => .inr hd

theorem takeWhile_append_eq_left_iff {p : Char → Bool} :
    (tail ++ behind).takeWhile p = tail ↔ (∀ d ∈ tail, p d = true) ∧ ∀ d ∈ behind.head?, p d = false := by
  constructor
  · intro h
    have htail : ∀ d ∈ tail, p d = true := by
      intro d hd
      rw [← h] at hd
      exact List.mem_takeWhile_imp hd
    rw [List.takeWhile_append_of_pos htail, List.append_right_eq_self] at h
    refine ⟨htail, ?_⟩
    intro d hd
    cases behind with
    | nil => cases hd
    | cons e behind =>
      cases hd
      by_contra hp
      rw [List.takeWhile_cons_of_pos (by simpa using hp)] at h
      cases h
  · rintro ⟨htail, hbehind⟩
    exact (Text.run_append htail hbehind).1

/-- What ended a run of characters ends it, if white space does. -/
theorem takeWhile_append_of_apart {p : Char → Bool} (hp : ∀ d, Text.isBlank d = true → p d = false)
    (happart : Apart behind behind') (h : (tail ++ behind).takeWhile p = tail) :
    (tail ++ behind').takeWhile p = tail := by
  rw [takeWhile_append_eq_left_iff] at h ⊢
  refine ⟨h.1, ?_⟩
  intro d hd
  rcases happart d hd with hblank | hsame
  · exact hp d hblank
  · exact h.2 d hsame

/-- The characters of numbers, a minus in front aside. -/
def isNumeral (d : Char) : Bool :=
  d.isDigit || d == '.'

theorem isNumeral_eq_false_of_isBlank {d : Char} (h : Text.isBlank d = true) : isNumeral d = false := by
  have hpoint : d ≠ '.' := by
    rintro rfl
    cases h
  simp [isNumeral, Text.isDigit_eq_false_of_isBlank h, hpoint]

/-- A number that takes all of `body`. -/
def cutNumeral (body : List Char) : Cut :=
  match Decimal.read? body with
  | some d => .lexeme (.number (Number.ofDecimal d)) body
  | none => .fault (.invalidNumber (String.ofList body)) body

theorem cutNumber_minus (cs : List Char) : cutNumber ('-' :: cs) = cutNumeral ('-' :: cs.takeWhile isNumeral) :=
  rfl

theorem cutNumber_of_ne (h : c ≠ '-') (cs : List Char) :
    cutNumber (c :: cs) = cutNumeral ((c :: cs).takeWhile isNumeral) := by
  unfold cutNumber
  split
  · rename_i rest hcs
    exact absurd (List.cons.inj hcs).1 h
  · rfl

theorem eq_of_cutNumeral {body taken : List Char} (h : cutNumeral body = .lexeme l taken) : body = taken := by
  unfold cutNumeral at h
  split at h
  · exact (Cut.lexeme.inj h).2
  · cases h

theorem cutNumber_of_apart (h : cutNumber (c :: (tail ++ behind)) = .lexeme l (c :: tail))
    (happart : Apart behind behind') : cutNumber (c :: (tail ++ behind')) = .lexeme l (c :: tail) := by
  by_cases hminus : c = '-'
  · subst hminus
    rw [cutNumber_minus] at h ⊢
    have htail : (tail ++ behind).takeWhile isNumeral = tail := (List.cons.inj (eq_of_cutNumeral h)).2
    rw [htail] at h
    rwa [takeWhile_append_of_apart (fun d => isNumeral_eq_false_of_isBlank) happart htail]
  · rw [cutNumber_of_ne hminus, ← List.cons_append] at h ⊢
    have htail : ((c :: tail) ++ behind).takeWhile isNumeral = c :: tail := eq_of_cutNumeral h
    rw [htail] at h
    rwa [takeWhile_append_of_apart (fun d => isNumeral_eq_false_of_isBlank) happart htail]

theorem cutName_of_apart (h : cutName (c :: (tail ++ behind)) = .lexeme l (c :: tail))
    (happart : Apart behind behind') : cutName (c :: (tail ++ behind')) = .lexeme l (c :: tail) := by
  have htail : ((c :: tail) ++ behind).takeWhile Text.continuesName = c :: tail := (Cut.lexeme.inj h).2
  have htail' := takeWhile_append_of_apart (fun d => Text.continuesName_eq_false_of_isBlank) happart htail
  rw [List.cons_append] at htail htail'
  rw [cutName, htail] at h
  rw [cutName, htail', h]

/-- The marks that a `=` behind them would lengthen. -/
theorem cutMark_of_head_ne {rest : List Char} (h : rest.head? ≠ some '=') :
    cutMark '<' rest = .lexeme (.comparison .lt) ['<'] ∧ cutMark '>' rest = .lexeme (.comparison .gt) ['>'] ∧
      cutMark '=' rest = .lexeme .assign ['='] := by
  cases rest with
  | nil => exact ⟨rfl, rfl, rfl⟩
  | cons d rest =>
    have hd : d ≠ '=' := fun heq => h (congrArg some heq)
    refine ⟨?_, ?_, ?_⟩ <;> (unfold cutMark; split <;> simp_all)

theorem cutMark_of_apart (h : cutMark c (tail ++ behind) = .lexeme l (c :: tail)) (happart : Apart behind behind') :
    cutMark c (tail ++ behind') = .lexeme l (c :: tail) := by
  have hhead : (∀ more, behind = '=' :: more → False) → behind'.head? ≠ some '=' := by
    intro hne hd
    rcases happart '=' hd with hblank | hsame
    · cases hblank
    · obtain ⟨more, hmore⟩ := List.head?_eq_some_iff.mp hsame
      exact hne more hmore
  unfold cutMark at h
  split at h
  case h_5 hne =>
    cases h
    exact (cutMark_of_head_ne (hhead hne)).1
  case h_6 hne =>
    cases h
    exact (cutMark_of_head_ne (hhead hne)).2.1
  case h_7 hne =>
    cases h
    exact (cutMark_of_head_ne (hhead hne)).2.2
  all_goals cases h
  all_goals rfl

/-- A number begins alike where it is set apart: a minus belongs to it with the digit behind. -/
theorem startsNumber_of_apart (hstarts : startsNumber c (tail ++ behind) = true)
    (h : cutNumber (c :: (tail ++ behind)) = .lexeme l (c :: tail)) (behind' : List Char) :
    startsNumber c (tail ++ behind') = true := by
  simp only [startsNumber, Bool.or_eq_true, Bool.and_eq_true, beq_iff_eq] at hstarts ⊢
  rcases hstarts with hdigit | ⟨hminus, hnext⟩
  · exact .inl hdigit
  · refine .inr ⟨hminus, ?_⟩
    cases tail with
    | cons e tail => exact hnext
    | nil =>
      subst hminus
      rw [cutNumber_minus] at h
      have htail : ([] ++ behind).takeWhile isNumeral = [] := (List.cons.inj (eq_of_cutNumeral h)).2
      cases behind with
      | nil => cases hnext
      | cons e behind =>
        have hdigit : e.isDigit = true := hnext
        have hplain := (takeWhile_append_eq_left_iff.mp htail).2 e rfl
        simp [isNumeral, hdigit] at hplain

/-- A string ends with its quote, whatever stands behind. -/
theorem cut_string_append (hquote : isQuote c = true) (h : cut c (tail ++ behind) = .lexeme l (c :: tail))
    (behind' : List Char) : cut c (tail ++ behind') = .lexeme l (c :: tail) := by
  have hmem : c ∈ tail ++ behind := by
    by_contra hnone
    rw [cut_unclosed hquote hnone] at h
    cases h
  obtain ⟨text, more, hmore, htext⟩ := List.eq_append_cons_of_mem hmem
  rw [hmore, cut_quoted hquote htext] at h
  obtain ⟨rfl, htaken⟩ := Cut.lexeme.inj h
  have htail : tail = text ++ [c] := (List.cons.inj htaken).2.symm
  rw [htail, List.append_assoc, List.singleton_append, cut_quoted hquote htext, List.cons_append]

/-- A token is the same wherever what stands behind sets it apart. -/
theorem cut_of_apart (h : cut c (tail ++ behind) = .lexeme l (c :: tail)) (happart : Apart behind behind') :
    cut c (tail ++ behind') = .lexeme l (c :: tail) := by
  by_cases hquote : isQuote c = true
  · exact cut_string_append hquote h behind'
  have hquote' : ¬ (c == '\x22' || c == '\x27') = true := hquote
  by_cases hnumber : startsNumber c (tail ++ behind) = true
  · rw [cut, if_pos hnumber] at h
    rw [cut, if_pos (startsNumber_of_apart hnumber h behind'), cutNumber_of_apart h happart]
  · have hdigit : c.isDigit = false := by
      simp only [startsNumber, Bool.or_eq_true, not_or, Bool.not_eq_true] at hnumber
      exact hnumber.1
    have hminus : c ≠ '-' := by
      rintro rfl
      rw [cut, if_neg hnumber] at h
      cases h
    have hnumber' : ¬ startsNumber c (tail ++ behind') = true := by simp [startsNumber, hdigit, hminus]
    rw [cut, if_neg hnumber, if_neg hquote'] at h
    rw [cut, if_neg hnumber', if_neg hquote']
    split at h
    · rename_i hname
      rw [if_pos hname]
      exact cutName_of_apart h happart
    · rename_i hname
      rw [if_neg hname]
      exact cutMark_of_apart h happart

/-- The text is one token and nothing more. -/
def Lexeme.WrittenAs (l : Lexeme) (text : List Char) : Prop :=
  ∃ c tail, text = c :: tail ∧ Text.isBlank c = false ∧ cut c tail = .lexeme l text

theorem exists_tail_of_cut {rest taken : List Char} (h : cut c rest = .lexeme l taken)
    (hcs : c :: rest = taken ++ behind) : ∃ tail, taken = c :: tail ∧ rest = tail ++ behind := by
  cases taken with
  | nil => exact absurd (length_pos_of_cut h) (by simp)
  | cons e tail =>
    obtain ⟨rfl, hrest⟩ := List.cons.inj hcs
    exact ⟨tail, rfl, hrest⟩

theorem writtenAs_of_cut {rest taken : List Char} (hc : Text.isBlank c = false) (h : cut c rest = .lexeme l taken)
    (hcs : c :: rest = taken ++ behind) : l.WrittenAs taken := by
  obtain ⟨tail, rfl, rfl⟩ := exists_tail_of_cut h hcs
  have halone := cut_of_apart h (apart_nil behind)
  rw [List.append_nil] at halone
  exact ⟨c, tail, rfl, hc, halone⟩

namespace Run

variable {offset stop : Nat} {cs passed ahead ahead' : List Char} {tokens : List Token}

/-- A run reads the same tokens in front of a text that sets them apart from it. -/
theorem of_apart (h : Run offset (passed ++ ahead) tokens stop ahead) (happart : Apart ahead ahead') :
    Run offset (passed ++ ahead') tokens stop ahead' := by
  generalize hcs : passed ++ ahead = cs at h
  induction h generalizing passed with
  | @done offset cs =>
    rw [List.append_left_eq_self.mp hcs]
    exact .done
  | @blank offset stop c rest ahead tokens hc h ih =>
    obtain ⟨more, hrest, -⟩ := h.exists_passed
    have hpassed : passed = c :: more := by
      apply (List.append_left_inj ahead).mp
      rw [hcs, hrest, List.cons_append]
    rw [hpassed, List.cons_append]
    exact .blank hc (ih happart hrest.symm)
  | @token offset stop c rest taken behind ahead l tokens hc hcut hsplit h ih =>
    obtain ⟨more, hbehind, -⟩ := h.exists_passed
    obtain ⟨tail, rfl, rfl⟩ := exists_tail_of_cut hcut hsplit
    have hpassed : passed = (c :: tail) ++ more := by
      apply (List.append_left_inj ahead).mp
      rw [hcs, hsplit, hbehind, List.append_assoc]
    have hcut' : cut c (tail ++ (more ++ ahead')) = .lexeme l (c :: tail) := by
      rw [hbehind] at hcut
      exact cut_of_apart hcut (happart.append more)
    rw [hpassed, List.append_assoc, List.cons_append]
    exact .token hc hcut' rfl (ih happart hbehind.symm)

/-- A token of a run is written in the content where its span says. -/
theorem exists_written_of_mem (h : Run offset cs tokens stop ahead) {t : Token} (ht : t ∈ tokens) :
    ∃ front text back, cs = front ++ text ++ back ∧ t.lexeme.WrittenAs text ∧
      t.span = ⟨offset + byteSize front, offset + byteSize (front ++ text)⟩ := by
  induction h with
  | done => cases ht
  | @blank offset stop c rest ahead tokens hc h ih =>
    obtain ⟨front, text, back, hrest, hwritten, hspan⟩ := ih ht
    refine ⟨c :: front, text, back, by simp [hrest], hwritten, ?_⟩
    rw [hspan, List.cons_append, byteSize, byteSize, Nat.add_assoc, Nat.add_assoc]
  | @token offset stop c rest taken behind ahead l tokens hc hcut hcs h ih =>
    rcases List.mem_cons.mp ht with hfirst | hlater
    · rw [hfirst]
      exact ⟨[], taken, behind, hcs, writtenAs_of_cut hc hcut hcs, rfl⟩
    · obtain ⟨front, text, back, hbehind, hwritten, hspan⟩ := ih hlater
      refine ⟨taken ++ front, text, back, by simp [hcs, hbehind], hwritten, ?_⟩
      rw [hspan, List.append_assoc, byteSize_append taken, byteSize_append taken, Nat.add_assoc, Nat.add_assoc]

/-- No token begins before the one in front of it has ended. -/
theorem pairwise_spans (h : Run offset cs tokens stop ahead) :
    tokens.Pairwise fun t u => t.span.stop ≤ u.span.start := by
  induction h with
  | done => exact .nil
  | blank hc h ih => exact ih
  | @token offset stop c rest taken behind ahead l tokens hc hcut hcs h ih =>
    refine List.pairwise_cons.mpr ⟨?_, ih⟩
    intro u hu
    obtain ⟨front, back, -, hstart⟩ := h.exists_start_of_mem hu
    rw [hstart]
    exact Nat.le_add_right _ _

/-- A character that a run passes stands in a token, or is white space. -/
theorem covered_or_blank (h : Run offset cs tokens stop ahead) {front back : List Char} {d : Char}
    (hcs : cs = front ++ d :: back) (hpassed : offset + byteSize front < stop) :
    (∃ t ∈ tokens, t.span.start ≤ offset + byteSize front ∧ offset + byteSize front + d.utf8Size ≤ t.span.stop) ∨
      Text.isBlank d = true := by
  induction h generalizing front with
  | done => omega
  | @blank offset stop c rest ahead tokens hc h ih =>
    cases front with
    | nil =>
      cases hcs
      exact .inr hc
    | cons e front =>
      obtain ⟨rfl, hrest⟩ := List.cons.inj hcs
      rw [byteSize, ← Nat.add_assoc] at hpassed ⊢
      exact ih hrest hpassed
  | @token offset stop c rest taken behind ahead l tokens hc hcut hsplit h ih =>
    rw [hsplit, List.append_eq_append_iff] at hcs
    have hcases : (∃ more, front = taken ++ more ∧ behind = more ++ d :: back) ∨
        ∃ within, taken = front ++ d :: within := by
      rcases hcs with hbehind | ⟨within, htaken, hmore⟩
      · exact .inl hbehind
      · cases within with
        | nil => exact .inl ⟨[], by rw [htaken, List.append_nil, List.append_nil], hmore.symm⟩
        | cons e within => exact .inr ⟨within, by rw [htaken, (List.cons.inj hmore).1]⟩
    rcases hcases with ⟨more, hfront, hbehind⟩ | ⟨within, htaken⟩
    · rw [hfront, byteSize_append, ← Nat.add_assoc] at hpassed ⊢
      rcases ih hbehind hpassed with ⟨t, ht, hcovered⟩ | hblank
      · exact .inl ⟨t, List.mem_cons_of_mem _ ht, hcovered⟩
      · exact .inr hblank
    · refine .inl ⟨_, List.mem_cons_self, Nat.le_add_right _ _, ?_⟩
      rw [htaken, byteSize_append, byteSize]
      dsimp only
      omega

end Run

end Token

end TextTemplate
