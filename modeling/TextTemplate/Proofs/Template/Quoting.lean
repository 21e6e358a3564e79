import TextTemplate.Proofs.Expr.QuotedStrings
import TextTemplate.Proofs.Source.RoundTrip
import TextTemplate.Proofs.Template.ContentFaults

namespace TextTemplate

open Piece

/-- Quotes in the content of a tag mean the same to the scan that cuts out the tag and to the lexer. -/
structure Piece.QuotesAgree (kind : TagKind) (content : List Char) : Prop where
  /-- `quoteAfter` is the quote that the scan holds open behind a part of the content. -/
  scanned : ∀ front more, content = front ++ more →
    splitTag kind (quoteAfter none front) (more ++ kind.closer) = .ok (more, [])
  strings : ∀ tokens stop ahead, Token.Run 0 content tokens stop ahead → ∀ text span,
    ⟨.string (String.ofList text), span⟩ ∈ tokens ↔ QuotedAt 0 content span text ∧ span.start < stop
  accepted : ∀ ts, Token.lex content = .ok ts → ∀ text span,
    ⟨.string (String.ofList text), span⟩ ∈ ts.toList ↔ QuotedAt 0 content span text
  /-- A closing delimiter in the content stands within a string. -/
  closers : ∀ ts, Token.lex content = .ok ts → ∀ front back, content = front ++ kind.closer ++ back →
    ∃ t ∈ ts.toList, t.kind = .string ∧ t.span.start < Token.byteSize front ∧
      Token.byteSize (front ++ kind.closer) < t.span.stop
  /-- The strings in front of a fault are the quotations that begin before the fault ends. -/
  rejected : ∀ e, Token.lex content = .error e → e.fault ≠ .unterminatedString ∧
    ∃ tokens ahead, Token.Run 0 content tokens e.span.start ahead ∧ ∀ text span,
      ⟨.string (String.ofList text), span⟩ ∈ tokens ↔ QuotedAt 0 content span text ∧ span.start < e.span.stop

namespace Piece

variable {kind : TagKind} {content : List Char}

theorem closes_of_scan {source : String} {scanned : Scanned} (h : scan source = .ok scanned) {piece : Piece}
    (hpiece : piece ∈ scanned.pieces) (hbody : piece.body = .tag kind content) : Closes kind content := by
  obtain ⟨bodies, hpieces, hstand, -⟩ := exists_layOut_of_scan h
  rw [hpieces] at hpiece
  obtain ⟨before, behind, hbodies, -, -⟩ := exists_of_mem_layOut hpiece
  rw [hbodies, hbody] at hstand
  exact (stand_append.mp hstand).2.1

theorem not_quotedAt_nil {offset : Nat} {span : Span} {text : List Char} : ¬ QuotedAt offset [] span text := by
  intro h
  obtain ⟨front, q, back, hquotation, -⟩ := h
  have hnil := hquotation.source_eq
  simp at hnil

theorem quotedAt_of_lex {ts : Tokens} (h : Token.lex content = .ok ts) {text : List Char} {span : Span} :
    ⟨.string (String.ofList text), span⟩ ∈ ts.toList ↔ QuotedAt 0 content span text := by
  rw [(Token.Run.of_lexFrom_eq_ok h).quotedAt_iff, or_iff_left not_quotedAt_nil]

theorem quotesAgree_of_closes (h : Closes kind content) : QuotesAgree kind content := by
  refine ⟨?_, ?_, ?_, ?_, ?_⟩
  · intro front more hcontent
    rw [Closes, hcontent, List.append_assoc] at h
    exact splitTag_behind h
  · intro tokens stop ahead hrun text span
    exact hrun.string_mem_iff
  · intro ts hlex text span
    exact quotedAt_of_lex hlex
  · intro ts hlex front back hcontent
    obtain ⟨span, text, hquoted, hstart, hstop⟩ := exists_quotedAt_of_closer h hcontent
    exact ⟨_, (quotedAt_of_lex hlex).mpr hquoted, rfl, hstart, hstop⟩
  · intro e hlex
    obtain ⟨tokens, ahead, taken, hrun, hhalts, hstop⟩ := Token.Run.of_lexFrom_eq_error hlex
    obtain ⟨hfault, hahead⟩ := hrun.of_halts h hhalts
    refine ⟨hfault, tokens, ahead, hrun, ?_⟩
    intro text span
    rw [hrun.quotedAt_iff, hstop]
    constructor
    · intro hmem
      have hpassed := (hrun.string_mem_iff.mp hmem).2
      exact ⟨.inl hmem, by omega⟩
    · intro hquoted
      obtain ⟨hmem | hbehind, hstart⟩ := hquoted
      · exact hmem
      · have hlater := hahead text span hbehind
        omega

end Piece

/-- In every tag the strings of the content are what stands between quotes for the scan, as far as the lexer gets, so
no source is refused for a string that is left open. -/
theorem Template.quotations_are_strings :
    (∀ source scanned, scan source = .ok scanned → ∀ piece ∈ scanned.pieces, ∀ kind content,
      piece.body = .tag kind content → QuotesAgree kind content) ∧
    ∀ source err, Template.parse source = .error err →
      err.fault ≠ .content (.lexical .unterminatedString) := by
  constructor
  · intro source scanned hscan piece hpiece kind content hbody
    exact quotesAgree_of_closes (closes_of_scan hscan hpiece hbody)
  · intro source err hparse hfault
    obtain ⟨scanned, hscan, piece, hpiece, kind, content, hbody, e, he, herr⟩ :=
      Template.exists_arisesIn_of_parse_eq_error hparse hfault
    have hagree := quotesAgree_of_closes (closes_of_scan hscan hpiece hbody)
    have hunclosed : e.fault = .lexical .unterminatedString := by
      rw [herr] at hfault
      exact TemplateFault.content.inj hfault
    cases he with
    | lexical hlex => exact (hagree.rejected _ hlex).1 (SyntaxFault.lexical.inj hunclosed)
    | order hlex ht horder => exact horder _ hunclosed

/-- Both quotes, each with the other one and a closing delimiter in it. -/
theorem Template.quotations_are_strings_mixed :
    let content := [' ', '\x22', '\x7d', '\x7d', '\x27', '\x22', ' ', '|', 'f', ':', '\x27', '%', '\x7d', '\x22', '\x27']
    let source := Body.source [.tag .output content]
    ∃ scanned, scan source = .ok scanned ∧ ∃ piece ∈ scanned.pieces, piece.body = .tag .output content ∧
      QuotesAgree .output content := by
  intro content source
  have hscan : scan source = .ok ⟨[⟨.tag .output content, Place.start, 19⟩], ⟨19, 1, 20⟩⟩ := by decide +kernel
  exact ⟨_, hscan, _, List.mem_singleton_self _, rfl,
    quotations_are_strings.1 source _ hscan _ (List.mem_singleton_self _) .output content rfl⟩

end TextTemplate
