import TextTemplate.Proofs.Engine.Verbatim
import TextTemplate.Proofs.Expr.Spacing
import TextTemplate.Proofs.Number.Printed
import TextTemplate.Proofs.Value.Numeric

namespace TextTemplate

open Decimal

namespace Token

variable {negative : Bool} {c : Char} {rest : List Char}

theorem isBlank_eq_false_of_isNumeral (h : isNumeral c = true) : Text.isBlank c = false := by
  by_contra hblank
  rw [isNumeral_eq_false_of_isBlank (Bool.not_eq_false _ ▸ hblank)] at h
  cases h

/-- A sign, a digit, and digits and points: one token where it is read as a decimal. -/
theorem writtenAs_number {d : Decimal} (hc : c.isDigit = true) (hrest : ∀ e ∈ rest, isNumeral e = true)
    (hread : read? (signText negative ++ c :: rest) = some d) :
    (Lexeme.number (Number.ofDecimal d)).WrittenAs (signText negative ++ c :: rest) := by
  have hnumeral : ∀ e ∈ c :: rest, isNumeral e = true := by
    refine List.forall_mem_cons.mpr ⟨?_, hrest⟩
    rw [isNumeral, hc, Bool.true_or]
  have htake : (c :: rest).takeWhile isNumeral = c :: rest := List.takeWhile_eq_self_iff.mpr hnumeral
  have hcut : cutNumeral (signText negative ++ c :: rest) =
      .lexeme (.number (Number.ofDecimal d)) (signText negative ++ c :: rest) := by
    rw [cutNumeral, hread]
  cases negative with
  | true =>
    have hstarts : startsNumber '-' (c :: rest) = true := hc
    refine ⟨'-', c :: rest, rfl, rfl, ?_⟩
    rw [cut, if_pos hstarts, cutNumber_minus, htake]
    exact hcut
  | false =>
    have hstarts : startsNumber c rest = true := by rw [startsNumber, hc, Bool.true_or]
    have hblank : Text.isBlank c = false := isBlank_eq_false_of_isNumeral (hnumeral c List.mem_cons_self)
    have hminus : c ≠ '-' := by
      rintro rfl
      cases hc
    refine ⟨c, rest, rfl, hblank, ?_⟩
    rw [cut, if_pos hstarts, cutNumber_of_ne hminus, htake]
    exact hcut

end Token

namespace Number

variable {n : Number} {front back : List Char}

theorem writtenAs_text (h : n.isFinite = true) : (Token.Lexeme.number n).WrittenAs n.text.toList := by
  obtain ⟨d, htext, hvalue⟩ := exists_text_eq h
  obtain ⟨c, rest, hcons, hc, hrest⟩ := d.exists_text_eq_cons
  have hread := read?_text d
  rw [hcons] at hread
  rw [htext, hcons, ← hvalue, ← ofDecimal_writtenOut]
  exact Token.writtenAs_number hc hrest hread

theorem minus_or_numeral_of_mem_text {c : Char} (h : n.isFinite = true) (hc : c ∈ n.text.toList) :
    c = '-' ∨ Token.isNumeral c = true := by
  obtain ⟨d, htext, -⟩ := exists_text_eq h
  obtain ⟨first, rest, hcons, hfirst, hrest⟩ := d.exists_text_eq_cons
  rw [htext, hcons, List.mem_append, List.mem_cons] at hc
  rcases hc with hsign | rfl | hlater
  · rw [signText] at hsign
    split at hsign
    · exact .inl (List.mem_singleton.mp hsign)
    · cases hsign
  · exact .inr (by rw [Token.isNumeral, hfirst, Bool.true_or])
  · exact .inr (hrest c hlater)

theorem readNumber?_text (h : n.isFinite = true) (hfront : ∀ c ∈ front, Text.isBlank c = true)
    (hback : ∀ c ∈ back, Text.isBlank c = true) :
    Value.readNumber? (String.ofList (front ++ n.text.toList ++ back)) = some n := by
  obtain ⟨d, htext, hvalue⟩ := exists_text_eq h
  rw [← hvalue] at h
  rw [htext, ← hvalue]
  exact Value.readNumber?_decimal h front back hfront hback

/-- Neither the text of a number nor white space means anything to the scanner. -/
theorem closes_text (h : n.isFinite = true) (hfront : ∀ c ∈ front, Text.isBlank c = true)
    (hback : ∀ c ∈ back, Text.isBlank c = true) : Piece.Closes .output (front ++ n.text.toList ++ back) := by
  have hall : ∀ c ∈ front ++ n.text.toList ++ back,
      Text.isBlank c = true ∨ c = '-' ∨ Token.isNumeral c = true := by
    intro c hc
    rcases List.mem_append.mp hc with hc | hc
    · rcases List.mem_append.mp hc with hc | hc
      · exact .inl (hfront c hc)
      · exact .inr (minus_or_numeral_of_mem_text h hc)
    · exact .inl (hback c hc)
  apply Piece.closes_of_plain
  · intro c hc
    by_contra hquote
    rw [Bool.not_eq_false] at hquote
    have hquote : c = '\x22' ∨ c = '\x27' := by simpa [Piece.isQuote] using hquote
    have hcases := hall c hc
    rcases hquote with rfl | rfl
    · revert hcases
      decide
    · revert hcases
      decide
  · intro hbrace
    have hcases := hall _ hbrace
    revert hcases
    decide

end Number

namespace Value

open Token (byteSize)

/-- What a finite number is printed as comes back as this number, with any white space around it: as the string that it
is, as the one token of a content, as the literal of an output tag, and as the document that this tag writes. -/
theorem printed_number_comes_back {n : Number} (hfinite : n.isFinite = true) {front back : String}
    (hfront : ∀ c ∈ front.toList, Text.isBlank c = true) (hback : ∀ c ∈ back.toList, Text.isBlank c = true) :
    let printed := (number n).text
    let padded := front ++ printed ++ back
    (string padded).asNumber? = some n ∧
    (∃ tokens, Token.lex padded.toList = .ok tokens ∧
      tokens.toList ++ [tokens.endToken] =
        [⟨.number n, ⟨byteSize front.toList, byteSize (front ++ printed).toList⟩⟩,
          ⟨.endOfTag, ⟨byteSize padded.toList, byteSize padded.toList⟩⟩]) ∧
    (∃ span, Filtered.ofContent padded.toList = .ok ⟨.literal (.number n) span, []⟩) ∧
    Template.Writes ("\x7b\x7b" ++ padded ++ "\x7d\x7d") printed := by
  intro printed padded
  have hpadded : padded.toList = front.toList ++ n.text.toList ++ back.toList := by
    rw [String.toList_append, String.toList_append]
    rfl
  have hlex := Token.lex_padded (Number.writtenAs_text hfinite) hfront hback
  have hread := Number.readNumber?_text hfinite hfront hback
  have hcloses := Number.closes_text hfinite hfront hback
  rw [← hpadded] at hlex hread hcloses
  rw [String.ofList_toList] at hread
  have hcontent := Template.ofContent_of_lex hlex rfl
  have hwrites := Template.writes_literal hcloses hcontent
  rw [String.ofList_toList] at hwrites
  refine ⟨hread, ⟨_, hlex, ?_⟩, ⟨_, hcontent⟩, hwrites⟩
  have hbegin : (front ++ printed).toList = front.toList ++ n.text.toList := String.toList_append
  rw [hbegin]
  rfl

/-- A negative number with two places, a tab in front of it and a no-break space behind. -/
theorem printed_number_comes_back_padded :
    let n := Number.ofDecimal ⟨true, 12957, -2⟩
    n.isFinite = true ∧ (number n).text = "-129.57" ∧ (string "\t-129.57\u00a0").asNumber? = some n ∧
      (∃ tokens, Token.lex "\t-129.57\u00a0".toList = .ok tokens ∧
        tokens.toList ++ [tokens.endToken] = [⟨.number n, ⟨1, 8⟩⟩, ⟨.endOfTag, ⟨10, 10⟩⟩]) ∧
      Template.Writes "\x7b\x7b\t-129.57\u00a0\x7d\x7d" "-129.57" := by
  intro n
  have hfinite : n.isFinite = true := by decide +kernel
  obtain ⟨units, storable, hread, hprinted⟩ := Number.decimalOf_ofDecimal (d := ⟨true, 12957, -2⟩) (by decide) rfl
    (by decide +kernel) (by decide +kernel) (by decide +kernel)
  have htext : (number n).text = "-129.57" := by
    have hdecimal : String.ofList (Decimal.text ⟨true, 12957, -2⟩) = "-129.57" := by decide +kernel
    rw [← hdecimal, ← hprinted]
    change (Number.ofDecimal ⟨true, 12957, -2⟩).text = _
    rw [hread]
    rfl
  have htab : ∀ c ∈ "\t".toList, Text.isBlank c = true := by simp [Text.isBlank]
  have hspace : ∀ c ∈ "\u00a0".toList, Text.isBlank c = true := by simp [Text.isBlank]
  have hcomes := printed_number_comes_back hfinite htab hspace
  dsimp only at hcomes
  rw [htext] at hcomes
  have hpadded : "\t" ++ "-129.57" ++ "\u00a0" = "\t-129.57\u00a0" := by decide
  have hsource : "\x7b\x7b" ++ "\t-129.57\u00a0" ++ "\x7d\x7d" = "\x7b\x7b\t-129.57\u00a0\x7d\x7d" := by decide
  rw [hpadded, hsource] at hcomes
  obtain ⟨hstring, htokens, -, hwrites⟩ := hcomes
  exact ⟨hfinite, htext, hstring, htokens, hwrites⟩

end Value

end TextTemplate
