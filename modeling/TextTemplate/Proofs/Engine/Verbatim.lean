import TextTemplate.Proofs.Engine.Transparency
import TextTemplate.Proofs.Expr.Spacing
import TextTemplate.Proofs.Source.RoundTrip
import TextTemplate.Proofs.Template.OpenBlocks

namespace TextTemplate

open Piece

namespace Template

/-- The source is a template that writes the text under all filters and for every caller. -/
def Writes (source text : String) : Prop :=
  ∃ t, parse source = .ok t ∧ ∀ registry context, t.render registry context = .ok text

theorem render_text (text : String) (registry : Registry) (context : Context) :
    render ⟨[.text text]⟩ registry context = .ok text := by
  change Except.ok ("" ++ text) = _
  rw [String.empty_append]

theorem render_literal (l : Literal) (span : Span) (registry : Registry) (context : Context) :
    render ⟨[.output ⟨.literal l span, []⟩]⟩ registry context = .ok l.value.text := by
  change Except.ok ("" ++ l.value.text) = _
  rw [String.empty_append]

theorem writes_text {text : String} (h : ∀ kind : TagKind, ¬ kind.opener <:+: text.toList) : Writes text text := by
  by_cases hempty : text.toList = []
  · have hparse : parse "" = .ok ⟨[]⟩ := parse_eq_ok_iff.mpr ⟨[], trivial, rfl, trivial, .nil⟩
    obtain rfl : text = "" := String.toList_inj.mp hempty
    exact ⟨⟨[]⟩, hparse, fun _ _ => rfl⟩
  · have hseparated : Separated [.text text.toList] :=
      ⟨List.forall_mem_singleton.mpr ⟨hempty, h⟩, List.isChain_singleton _⟩
    have hspelled : SpelledBy ⟨[.text text]⟩ [.text text.toList] := by
      refine ⟨⟨trivial, trivial⟩, .cons ?_ .nil⟩
      have htext : (Body.text text.toList).Spells (.text (String.ofList text.toList)) := .text
      rw [String.ofList_toList] at htext
      exact htext
    refine ⟨_, parse_eq_ok_iff.mpr ⟨_, stand_nil_iff_separated.mpr hseparated, ?_, hspelled⟩, render_text text⟩
    simp [Body.source]

/-- A text between quotes and blanks, the content of an output tag. -/
def quoted (q : Char) (text : List Char) : List Char :=
  ' ' :: q :: (text ++ [q, ' '])

variable {q : Char} {text : List Char}

theorem closes_quoted (hq : isQuote q = true) (h : q ∉ text) : Closes .output (quoted q text) := by
  have hblank : splitTag .output none (' ' :: TagKind.output.closer) = .ok ([' '], []) := by decide
  have hquoted : splitTag .output none (q :: (text ++ q :: ' ' :: TagKind.output.closer)) = _ :=
    splitTag_quoted hq h _
  rw [hblank] at hquoted
  have hcontent : quoted q text ++ TagKind.output.closer =
      ' ' :: q :: (text ++ q :: ' ' :: TagKind.output.closer) := by simp [quoted]
  rw [Closes, hcontent, splitTag_cons, if_neg (by simp [TagKind.closer])]
  have hstep : quoteStep none ' ' = none := by decide
  rw [hstep, hquoted]
  rfl

theorem isBlank_eq_false_of_isQuote (hq : isQuote q = true) : Text.isBlank q = false := by
  have hquote : q = '\x22' ∨ q = '\x27' := by simpa [isQuote] using hq
  rcases hquote with rfl | rfl <;> decide

theorem exists_lex_quoted (hq : isQuote q = true) (h : q ∉ text) :
    ∃ span stop, Token.lex (quoted q text) = .ok ⟨[⟨.string (String.ofList text), span⟩], stop⟩ := by
  have hwritten : (Token.Lexeme.string (String.ofList text)).WrittenAs (q :: (text ++ [q])) :=
    ⟨q, text ++ [q], rfl, isBlank_eq_false_of_isQuote hq, Token.cut_quoted hq h []⟩
  have hblank : ∀ c ∈ [' '], Text.isBlank c = true := List.forall_mem_singleton.mpr rfl
  have hquoted : [' '] ++ (q :: (text ++ [q])) ++ [' '] = quoted q text := by simp [quoted]
  rw [← hquoted]
  exact ⟨_, _, Token.lex_padded hwritten hblank hblank⟩

/-- One token is a whole expression if it is a primary. -/
theorem ofContent_of_lex {content : List Char} {token : Token} {stop : Nat} {p : Primary}
    (hlex : Token.lex content = .ok ⟨[token], stop⟩) (hprimary : Grammar.primary [token] = (.ok p, [])) :
    Filtered.ofContent content = .ok ⟨p, []⟩ := by
  have hcalls : Grammar.calls [] = (.ok [], []) := by simp [Grammar.calls]
  rw [Filtered.ofContent, Cursor.ofContent, hlex]
  change Cursor.orFail (Cursor.parse Grammar.filtered _) >>= _ = _
  simp [Cursor.orFail, Cursor.parse, Grammar.filtered, hprimary, hcalls, Grammar.Outcome.map, Except.map]
  rfl

theorem exists_ofContent_quoted (hq : isQuote q = true) (h : q ∉ text) :
    ∃ span, Filtered.ofContent (quoted q text) = .ok ⟨.literal (.string (String.ofList text)) span, []⟩ := by
  obtain ⟨span, stop, hlex⟩ := exists_lex_quoted hq h
  exact ⟨span, ofContent_of_lex hlex rfl⟩

/-- A literal in an output tag writes the text of its value. -/
theorem writes_literal {content : List Char} {l : Literal} {span : Span} (hcloses : Closes .output content)
    (hcontent : Filtered.ofContent content = .ok ⟨.literal l span, []⟩) :
    Writes ("\x7b\x7b" ++ String.ofList content ++ "\x7d\x7d") l.value.text := by
  have hstand : Stand [] [.tag .output content] := ⟨hcloses, trivial⟩
  have hspelled : SpelledBy ⟨[.output ⟨.literal l span, []⟩]⟩ [.tag .output content] :=
    ⟨⟨trivial, trivial⟩, .cons (.output hcontent) .nil⟩
  refine ⟨_, parse_eq_ok_iff.mpr ⟨_, hstand, ?_, hspelled⟩, render_literal l span⟩
  apply String.toList_inj.mp
  simp [Body.source, TagKind.opener, TagKind.closer]

theorem writes_quoted (hq : isQuote q = true) {text : String} (h : q ∉ text.toList) :
    Writes ("\x7b\x7b " ++ String.singleton q ++ text ++ String.singleton q ++ " \x7d\x7d") text := by
  obtain ⟨span, hcontent⟩ := exists_ofContent_quoted hq h
  have hwrites := writes_literal (closes_quoted hq h) hcontent
  have hsource : "\x7b\x7b" ++ String.ofList (quoted q text.toList) ++ "\x7d\x7d" =
      "\x7b\x7b " ++ String.singleton q ++ text ++ String.singleton q ++ " \x7d\x7d" := by
    apply String.toList_inj.mp
    simp [quoted]
  rw [hsource, String.ofList_toList] at hwrites
  exact hwrites

end Template

namespace Engine

theorem Sound.renderSource_of_writes {e : Engine} (h : e.Sound) {source text : String}
    (hwrites : Template.Writes source text) (context : Context) : (e.renderSource source context).1 = .ok text := by
  obtain ⟨template, hparse, hrender⟩ := hwrites
  obtain ⟨t, parses, htemplate, hengine⟩ := h.parse_of_ok hparse
  rw [renderSource, hengine]
  change (t.template.render e.filters context).mapError EngineError.render = _
  rw [htemplate, hrender]
  rfl

/-- Whatever an engine was asked before, a text without opening delimiters is its own document, and any text is the
document of the output tag that holds it between quotes not found in it. -/
theorem writes_verbatim (filters : Registry) (options : EngineOptions) (ops : List Operation) (context : Context)
    (text : String) :
    let e := ((Session.start filters options).run ops).2.engine
    ((∀ kind : TagKind, ¬ kind.opener <:+: text.toList) → (e.renderSource text context).1 = .ok text) ∧
    ∀ q : Char, isQuote q = true → q ∉ text.toList →
      (e.renderSource ("\x7b\x7b " ++ String.singleton q ++ text ++ String.singleton q ++ " \x7d\x7d") context).1 =
        .ok text := by
  intro e
  obtain ⟨-, hagrees, -⟩ := (Session.Agrees.start filters options).run ops
  constructor
  · intro hplain
    exact hagrees.sound.renderSource_of_writes (Template.writes_text hplain) context
  · intro q hq htext
    exact hagrees.sound.renderSource_of_writes (Template.writes_quoted hq htext) context

/-- Delimiters of both kinds, the other quote, a backslash and a line feed in quotes, with the source in the cache. -/
theorem writes_verbatim_delimiters :
    let source := "\x7b\x7b 'say \x22\x7d\x7d %\x7d \x7b\x7b \x7b% \\\n\x22' \x7d\x7d"
    let text := "say \x22\x7d\x7d %\x7d \x7b\x7b \x7b% \\\n\x22"
    let e := ((Session.start Registry.empty ⟨1⟩).run [.parse source, .parse "\x7b% if %\x7d"]).2.engine
    '\x27' ∉ text.toList ∧ (e.renderSource source Context.empty).1 = .ok text := by
  intro source text e
  have htext : '\x27' ∉ text.toList := by decide
  have hverbatim := writes_verbatim Registry.empty ⟨1⟩ [.parse source, .parse "\x7b% if %\x7d"] Context.empty text
  have hsource : "\x7b\x7b " ++ String.singleton '\x27' ++ text ++ String.singleton '\x27' ++ " \x7d\x7d" = source := by
    decide
  refine ⟨htext, ?_⟩
  rw [← hsource]
  exact hverbatim.2 '\x27' (by decide) htext

end Engine

end TextTemplate
