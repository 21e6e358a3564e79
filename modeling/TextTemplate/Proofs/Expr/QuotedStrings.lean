import TextTemplate.Proofs.Expr.TokenRun
import TextTemplate.Proofs.Source.Quotes

namespace TextTemplate

namespace Piece

/-- `text` stands in `cs` between two quotes of one kind, and in front of the first of them no quote is open. -/
structure Quotation (cs front : List Char) (q : Char) (text back : List Char) : Prop where
  source_eq : cs = front ++ q :: (text ++ q :: back)
  isQuote : isQuote q = true
  unquoted : quoteAfter none front = none
  not_mem : q ∉ text

/-- In a text that begins at byte `offset`, the range reaches from a quote that opens to the one that closes it. -/
def QuotedAt (offset : Nat) (cs : List Char) (span : Span) (text : List Char) : Prop :=
  ∃ front q back, Quotation cs front q text back ∧
    span = ⟨offset + Token.byteSize front, offset + Token.byteSize (front ++ q :: (text ++ [q]))⟩

variable {offset : Nat} {c q : Char} {cs text behind : List Char} {span : Span}

/-- A text has one beginning that ends in front of its first `q`. -/
theorem eq_of_append_cons_eq {as bs as' bs' : List Char} (h : q ∉ as) (h' : q ∉ as')
    (heq : as ++ q :: bs = as' ++ q :: bs') : as = as' ∧ bs = bs' := by
  induction as generalizing as' with
  | nil =>
    cases as' with
    | nil => exact ⟨rfl, (List.cons.inj heq).2⟩
    | cons a as' => exact absurd (List.cons.inj heq).1 (List.ne_of_not_mem_cons h')
  | cons a as ih =>
    cases as' with
    | nil => exact absurd (List.cons.inj heq).1.symm (List.ne_of_not_mem_cons h)
    | cons a' as' =>
      obtain ⟨hsame, hrest⟩ := List.cons.inj heq
      obtain ⟨hfront, hback⟩ := ih (List.not_mem_of_not_mem_cons h) (List.not_mem_of_not_mem_cons h') hrest
      exact ⟨by rw [hsame, hfront], hback⟩

theorem QuotedAt.offset_le (h : QuotedAt offset cs span text) : offset ≤ span.start := by
  obtain ⟨front, q, back, -, hspan⟩ := h
  rw [hspan]
  exact Nat.le_add_right _ _

/-- What is no quote and stands in no quotes moves what is quoted behind it. -/
theorem quotedAt_cons_iff (hc : isQuote c = false) :
    QuotedAt offset (c :: cs) span text ↔ QuotedAt (offset + c.utf8Size) cs span text := by
  have hstep : quoteStep none c = none := by simp [quoteStep, hc]
  constructor
  · intro h
    obtain ⟨front, q, back, ⟨hcs, hq, hfront, htext⟩, hspan⟩ := h
    cases front with
    | nil =>
      obtain ⟨hsame, -⟩ := List.cons.inj hcs
      rw [hsame, hq] at hc
      cases hc
    | cons d front =>
      obtain ⟨hsame, hrest⟩ := List.cons.inj hcs
      subst hsame
      change quoteAfter (quoteStep none c) front = none at hfront
      rw [hstep] at hfront
      refine ⟨front, q, back, ⟨hrest, hq, hfront, htext⟩, ?_⟩
      simpa [Token.byteSize, Nat.add_assoc] using hspan
  · intro h
    obtain ⟨front, q, back, ⟨hcs, hq, hfront, htext⟩, hspan⟩ := h
    have hopen : quoteAfter none (c :: front) = none := by
      change quoteAfter (quoteStep none c) front = none
      rw [hstep, hfront]
    refine ⟨c :: front, q, back, ⟨by rw [hcs]; rfl, hq, hopen, htext⟩, ?_⟩
    simpa [Token.byteSize, Nat.add_assoc] using hspan

theorem quotedAt_append_iff {plain : List Char} (h : ∀ c ∈ plain, isQuote c = false) :
    QuotedAt offset (plain ++ cs) span text ↔ QuotedAt (offset + Token.byteSize plain) cs span text := by
  induction plain generalizing offset with
  | nil => rfl
  | cons c rest ih =>
    obtain ⟨hc, hrest⟩ := List.forall_mem_cons.mp h
    rw [List.cons_append, quotedAt_cons_iff hc, ih hrest, Token.byteSize, Nat.add_assoc]

/-- A text that begins with a quotation has that one, and those behind it. -/
theorem quotedAt_quotation_iff (hq : isQuote q = true) {inner : List Char} (hinner : q ∉ inner) :
    QuotedAt offset (q :: (inner ++ q :: behind)) span text ↔
      (text = inner ∧ span = ⟨offset, offset + Token.byteSize (q :: (inner ++ [q]))⟩) ∨
        QuotedAt (offset + Token.byteSize (q :: (inner ++ [q]))) behind span text := by
  constructor
  · intro h
    obtain ⟨front, p, back, ⟨hcs, hp, hfront, htext⟩, hspan⟩ := h
    cases front with
    | nil =>
      obtain ⟨hsame, hrest⟩ := List.cons.inj hcs
      subst hsame
      obtain ⟨hinside, -⟩ := eq_of_append_cons_eq hinner htext hrest
      subst hinside
      refine .inl ⟨rfl, ?_⟩
      simpa [Token.byteSize] using hspan
    | cons d front =>
      have hsame : q = d := (List.cons.inj hcs).1
      have hrest : inner ++ q :: behind = front ++ p :: (text ++ p :: back) := (List.cons.inj hcs).2
      subst hsame
      -- The first quote is open behind itself, so `front` gets past the one that closes it.
      have hmem : q ∈ front := by
        by_contra hnone
        have hopen : quoteAfter none (q :: front) = some q := by
          change quoteAfter (quoteStep none q) front = some q
          rw [quoteStep, if_pos hq, quoteAfter_some_of_not_mem hnone]
        rw [hopen] at hfront
        cases hfront
      obtain ⟨first, later, hlater, hfirst⟩ := List.eq_append_cons_of_mem hmem
      rw [hlater, List.append_assoc, List.cons_append] at hrest
      obtain ⟨hinside, hbehind⟩ := eq_of_append_cons_eq hinner hfirst hrest
      subst hinside
      rw [hlater, quoteAfter_quoted hq hinner] at hfront
      refine .inr ⟨later, p, back, ⟨hbehind, hp, hfront, htext⟩, ?_⟩
      simpa [hlater, Token.byteSize, Token.byteSize_append, Nat.add_assoc] using hspan
  · intro h
    rcases h with ⟨htext, hspan⟩ | h
    · subst htext
      exact ⟨[], q, behind, ⟨rfl, hq, rfl, hinner⟩, hspan⟩
    · obtain ⟨front, p, back, ⟨hcs, hp, hfront, htext⟩, hspan⟩ := h
      refine ⟨q :: (inner ++ q :: front), p, back, ⟨by rw [hcs]; simp, hp, ?_, htext⟩, ?_⟩
      · rw [quoteAfter_quoted hq hinner, hfront]
      · simpa [Token.byteSize, Token.byteSize_append, Nat.add_assoc] using hspan

/-- A closing delimiter within the content of its tag stands in a quotation. -/
theorem exists_quotedAt_of_closer {kind : TagKind} {content front back : List Char} (h : Closes kind content)
    (hcontent : content = front ++ kind.closer ++ back) :
    ∃ span text, QuotedAt 0 content span text ∧ span.start < Token.byteSize front ∧
      Token.byteSize (front ++ kind.closer) < span.stop := by
  obtain ⟨hclosed, hfirst⟩ := closes_iff.mp h
  cases hquote : quoteAfter none front with
  | none =>
    have hwhole : front ++ kind.closer <+: content ++ kind.closer := ⟨back ++ kind.closer, by simp [hcontent]⟩
    have hle := hfirst front ⟨hwhole, hquote⟩
    have hlength : kind.closer.length = 2 := by cases kind <;> rfl
    simp only [hcontent, List.length_append] at hle
    omega
  | some q =>
    obtain ⟨before, inner, hfront, hq, hbefore, hinner⟩ := exists_of_quoteAfter_eq_some hquote
    -- The quote is closed in the content, and not by the delimiter.
    have hcloser : q ∉ kind.closer := by
      intro hmem
      have hnone : ∀ c ∈ kind.closer, isQuote c = false := by cases kind <;> simp [TagKind.closer, isQuote]
      rw [hnone q hmem] at hq
      cases hq
    have hback : q ∈ back := by
      by_contra hnone
      have hopen : quoteAfter (some q) (kind.closer ++ back) = some q :=
        quoteAfter_some_of_not_mem (by simp [hcloser, hnone])
      rw [hcontent, List.append_assoc, quoteAfter_append, hquote, hopen] at hclosed
      cases hclosed
    obtain ⟨within, behind, hbehind, hwithin⟩ := List.eq_append_cons_of_mem hback
    have hquotation : Quotation content before q (inner ++ (kind.closer ++ within)) behind :=
      ⟨by simp [hcontent, hfront, hbehind], hq, hbefore, by simp [hinner, hcloser, hwithin]⟩
    have hpos := q.utf8Size_pos
    refine ⟨_, _, ⟨before, q, behind, hquotation, rfl⟩, ?_, ?_⟩
    · simp only [hfront, Token.byteSize_append, Token.byteSize]
      omega
    · simp only [hfront, Token.byteSize_append, Token.byteSize]
      omega

end Piece

namespace Token

open Piece

variable {offset stop : Nat} {cs ahead : List Char} {tokens : List Token}

/-- A token is a string between its quotes, or it has no quote in it. -/
theorem string_or_plain_of_cut {c : Char} {rest taken : List Char} {l : Lexeme} (h : cut c rest = .lexeme l taken) :
    (∃ text, isQuote c = true ∧ c ∉ text ∧ taken = c :: (text ++ [c]) ∧ l = .string (String.ofList text)) ∨
      (∀ d ∈ taken, isQuote d = false) ∧ ∀ text, l ≠ .string text := by
  cases hc : isQuote c with
  | false =>
    have hplain := plain_cut hc rest
    rw [h] at hplain
    exact .inr ⟨hplain.unquoted, fun text heq => hplain.noString text taken (by rw [heq])⟩
  | true =>
    have hmem : c ∈ rest := by
      by_contra hnone
      rw [cut_unclosed hc hnone] at h
      cases h
    obtain ⟨text, behind, hrest, htext⟩ := List.eq_append_cons_of_mem hmem
    rw [hrest, cut_quoted hc htext] at h
    cases h
    exact .inl ⟨text, rfl, htext, rfl, rfl⟩

/-- What is refused is a quote that is never closed, or it has no quote in it. -/
theorem unclosed_or_plain_of_cut {c : Char} {rest taken : List Char} {f : LexFault}
    (h : cut c rest = .fault f taken) : (isQuote c = true ∧ c ∉ rest) ∨
      (f ≠ .unterminatedString ∧ taken <+: c :: rest ∧ ∀ d ∈ taken, isQuote d = false) := by
  cases hc : isQuote c with
  | false =>
    have hplain := plain_cut hc rest
    rw [h] at hplain
    exact .inr ⟨fun hf => hplain.noOpenString taken (by rw [hf]), hplain.front, hplain.unquoted⟩
  | true =>
    refine .inl ⟨rfl, ?_⟩
    intro hmem
    obtain ⟨text, behind, hrest, htext⟩ := List.eq_append_cons_of_mem hmem
    rw [hrest, cut_quoted hc htext] at h
    cases h

/-- No quote is open where the lexer stands between two tokens. -/
theorem Run.quoteAfter_eq_none (h : Run offset cs tokens stop ahead) :
    ∃ passed, cs = passed ++ ahead ∧ stop = offset + byteSize passed ∧ quoteAfter none passed = none := by
  induction h with
  | done => exact ⟨[], rfl, rfl, rfl⟩
  | @blank offset stop c rest ahead tokens hc h ih =>
    obtain ⟨passed, hrest, hstop, hquote⟩ := ih
    have hplain : isQuote c = false := isQuote_eq_false_of hc (by decide) (by decide)
    refine ⟨c :: passed, by rw [hrest]; rfl, by rw [hstop, byteSize, Nat.add_assoc], ?_⟩
    change quoteAfter (quoteStep none c) passed = none
    rw [quoteStep, if_neg (by simp [hplain]), hquote]
  | @token offset stop c rest taken behind ahead l tokens hc hcut hcs h ih =>
    obtain ⟨passed, hbehind, hstop, hquote⟩ := ih
    refine ⟨taken ++ passed, by rw [hcs, hbehind, List.append_assoc], ?_, ?_⟩
    · rw [hstop, byteSize_append, Nat.add_assoc]
    · rcases string_or_plain_of_cut hcut with ⟨text, hq, htext, htaken, -⟩ | ⟨hplain, -⟩
      · have happend : taken ++ passed = c :: (text ++ c :: passed) := by simp [htaken]
        rw [happend, quoteAfter_quoted hq htext, hquote]
      · rw [quoteAfter_append, quoteAfter_of_unquoted hplain, hquote]

/-- A quotation is read as a string, or it is still ahead. -/
theorem Run.quotedAt_iff (h : Run offset cs tokens stop ahead) {text : List Char} {span : Span} :
    QuotedAt offset cs span text ↔
      ⟨.string (String.ofList text), span⟩ ∈ tokens ∨ QuotedAt stop ahead span text := by
  induction h with
  | done => simp
  | @blank offset stop c rest ahead tokens hc h ih =>
    have hplain : isQuote c = false := isQuote_eq_false_of hc (by decide) (by decide)
    rw [quotedAt_cons_iff hplain, ih]
  | @token offset stop c rest taken behind ahead l tokens hc hcut hcs h ih =>
    rw [hcs, List.mem_cons, or_assoc, ← ih]
    rcases string_or_plain_of_cut hcut with ⟨inner, hq, hinner, htaken, hl⟩ | ⟨hplain, hl⟩
    · have happend : taken ++ behind = c :: (inner ++ c :: behind) := by simp [htaken]
      rw [happend, quotedAt_quotation_iff hq hinner, ← htaken, hl, Token.mk.injEq, Lexeme.string.injEq,
        String.ofList_inj]
    · have hother : (⟨.string (String.ofList text), span⟩ : Token) ≠ ⟨l, ⟨offset, offset + byteSize taken⟩⟩ := by
        intro heq
        exact hl _ (Token.mk.inj heq).1.symm
      rw [or_iff_right hother, quotedAt_append_iff hplain]

/-- The strings that a run reads are the quotations that it passes. -/
theorem Run.string_mem_iff (h : Run offset cs tokens stop ahead) {text : List Char} {span : Span} :
    ⟨.string (String.ofList text), span⟩ ∈ tokens ↔ QuotedAt offset cs span text ∧ span.start < stop := by
  rw [h.quotedAt_iff]
  constructor
  · intro hmem
    obtain ⟨hstart, hstop⟩ := h.span_of_mem hmem
    exact ⟨.inl hmem, hstart.trans_le hstop⟩
  · intro hquoted
    obtain ⟨hmem | hahead, hstart⟩ := hquoted
    · exact hmem
    · exact absurd hahead.offset_le (Nat.not_le.mpr hstart)

/-- Where the lexer halts in the content of a tag, no string is left open, and no quotation begins in what it
refuses. -/
theorem Run.of_halts {kind : TagKind} {content taken : List Char} {f : LexFault}
    (h : Run 0 content tokens stop ahead) (hcloses : Closes kind content) (hhalts : Halts ahead f taken) :
    f ≠ .unterminatedString ∧ ∀ text span, QuotedAt stop ahead span text → stop + byteSize taken ≤ span.start := by
  obtain ⟨c, rest, hahead, -, hcut⟩ := hhalts
  rcases unclosed_or_plain_of_cut hcut with ⟨hq, hnone⟩ | ⟨hfault, ⟨behind, hbehind⟩, hplain⟩
  · obtain ⟨passed, hcontent, -, hpassed⟩ := h.quoteAfter_eq_none
    have hopen : quoteAfter none content = some c := by
      rw [hcontent, hahead, quoteAfter_append, hpassed]
      change quoteAfter (quoteStep none c) rest = some c
      rw [quoteStep, if_pos hq, quoteAfter_some_of_not_mem hnone]
    have hclosed := (closes_iff.mp hcloses).1
    rw [hopen] at hclosed
    cases hclosed
  · refine ⟨hfault, ?_⟩
    intro text span hquoted
    rw [hahead, ← hbehind, quotedAt_append_iff hplain] at hquoted
    exact hquoted.offset_le

end Token

end TextTemplate
