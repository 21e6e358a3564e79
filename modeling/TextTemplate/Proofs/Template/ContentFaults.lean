import TextTemplate.Proofs.Expr.Faults
import TextTemplate.Proofs.Template.Spelling

namespace TextTemplate

open Outcome

/-- A tag is rejected as a whole, or its content is at fault. -/
def TemplateError.ComesOf (err : TemplateError) (place : Place) (content : List Char) : Prop :=
  (err.place = place ∧ ∀ f, err.fault ≠ .content f) ∨
    ∃ e : SyntaxError, e.ArisesIn content ∧ err = .inContent place content e

/-- The cursor of the statement is on its way through the content. -/
def Statement.Lexed (s : Statement) : Prop :=
  ∃ ts, Token.lex s.content = .ok ts ∧ Cursor.Leads ⟨ts.toList, ts.stop⟩ s.cursor

namespace Statement

variable {s : Statement} {err : TemplateError} {place : Place} {content : List Char}

theorem lexed_of_ofTag (h : ofTag place content = .ok s) : s.Lexed ∧ s.place = place ∧ s.content = content := by
  obtain ⟨ts, span, rest, hlex, htokens, hs⟩ := ofTag_eq_ok_iff.mp h
  rw [hs]
  refine ⟨⟨ts, hlex, ?_, rfl⟩, rfl, rfl⟩
  rw [htokens]
  exact List.suffix_cons _ _

theorem comesOf_of_ofTag (h : ofTag place content = .error err) : err.ComesOf place content := by
  unfold ofTag at h
  split at h
  · rename_i e hcursor
    cases h
    exact .inr ⟨e, SyntaxError.arisesIn_of_cursor hcursor, rfl⟩
  · rename_i c hcursor
    split at h
    · cases h
      exact .inl ⟨rfl, fun f hf => by cases hf⟩
    · split at h
      · rename_i e d hname
        cases h
        have hfault : (c.expectIdentifier "tag name").1 = .error e := by rw [hname]
        have hahead := Cursor.faultAhead_of_expectIdentifier hfault
        unfold Cursor.ofContent at hcursor
        split at hcursor
        · rename_i ts hlex
          cases hcursor
          exact .inr ⟨e, SyntaxError.arisesIn_of_faultAhead hlex ⟨List.suffix_rfl, rfl⟩ hahead, rfl⟩
        · cases hcursor
      · cases h

theorem comesOf_of_read {α : Type} {reader : Cursor → Except SyntaxError α} (hs : s.Lexed)
    (hreader : ∀ {e}, reader s.cursor = .error e → s.cursor.FaultAhead e) (h : s.read reader = .error err) :
    err.ComesOf s.place s.content := by
  obtain ⟨ts, hlex, hleads⟩ := hs
  unfold read at h
  split at h
  · cases h
  · rename_i e hread
    cases h
    exact .inr ⟨e, SyntaxError.arisesIn_of_faultAhead hlex hleads (hreader hread), rfl⟩

theorem comesOf_of_bare (hs : s.Lexed) (h : s.bare = .error err) : err.ComesOf s.place s.content :=
  comesOf_of_read hs Cursor.faultAhead_of_expectEnd h

theorem comesOf_of_condition (hs : s.Lexed) (h : s.condition = .error err) : err.ComesOf s.place s.content :=
  comesOf_of_read hs (Cursor.faultAhead_of_parseToEnd Grammar.suffix_condition Grammar.isOfOrder_of_condition id) h

theorem comesOf_of_loopHead (hs : s.Lexed) (h : s.loopHead = .error err) : err.ComesOf s.place s.content :=
  comesOf_of_read hs (Cursor.faultAhead_of_parseBinding Cursor.faultAhead_of_expectKeyword
    Cursor.leads_of_expectKeyword) h

theorem comesOf_of_assignment (hs : s.Lexed) (h : s.assignment = .error err) : err.ComesOf s.place s.content :=
  comesOf_of_read hs (Cursor.faultAhead_of_parseBinding Cursor.faultAhead_of_expect Cursor.leads_of_expect) h

end Statement

namespace Progress

variable {p : Progress} {s : Statement} {err : TemplateError}

/-- What is done with a content that could be read cannot fail. -/
theorem comesOf_of_bind {α β : Type} {x : Except TemplateError α} {f : α → β} {place : Place} {content : List Char}
    (hx : x = .error err → err.ComesOf place content) (h : (x >>= fun a => pure (f a)) = .error err) :
    err.ComesOf place content := by
  rcases bind_eq_error_iff.mp h with hread | ⟨a, -, hnone⟩
  · exact hx hread
  · cases hnone

theorem comesOf_of_closeConditional {body : Array Node} {done : List (Condition × List Node)}
    {pending : Option Condition} {frame : Frame} {below : List Frame} {closer : Closer} (hs : s.Lexed)
    (h : closeConditional body done pending frame below s closer = .error err) : err.ComesOf s.place s.content := by
  unfold closeConditional at h
  split at h
  case h_1 | h_2 | h_3 =>
    cases h
    exact .inl ⟨rfl, fun f hf => by cases hf⟩
  case h_4 => exact comesOf_of_bind (Statement.comesOf_of_condition hs) h
  case h_5 | h_6 | h_7 => exact comesOf_of_bind (Statement.comesOf_of_bare hs) h

theorem comesOf_of_close {closer : Closer} (hs : s.Lexed) (h : p.close s closer = .error err) :
    err.ComesOf s.place s.content := by
  unfold close at h
  split at h
  · cases h
    exact .inl ⟨rfl, fun f hf => by cases hf⟩
  · split at h
    · exact comesOf_of_closeConditional hs h
    · split at h
      · exact comesOf_of_bind (Statement.comesOf_of_bare hs) h
      · cases h
        exact .inl ⟨rfl, fun f hf => by cases hf⟩

theorem comesOf_of_statement (hs : s.Lexed) (h : p.statement s = .error err) : err.ComesOf s.place s.content := by
  unfold statement at h
  split at h
  · exact comesOf_of_close hs h
  · split at h
    · exact comesOf_of_bind (Statement.comesOf_of_condition hs) h
    · exact comesOf_of_bind (Statement.comesOf_of_loopHead hs) h
    · exact comesOf_of_bind (Statement.comesOf_of_assignment hs) h
    · cases h
      exact .inl ⟨rfl, fun f hf => by cases hf⟩

/-- Texts are never rejected, and of a tag that is, the error comes from that tag. -/
theorem comesOf_of_step {piece : Piece} (h : p.step piece = .error err) :
    ∃ kind content, piece.body = .tag kind content ∧ err.ComesOf piece.place content := by
  obtain ⟨body, place, stop⟩ := piece
  cases body with
  | text content => cases h
  | tag kind content =>
    refine ⟨kind, content, rfl, ?_⟩
    cases kind with
    | output =>
      simp only [step] at h
      split at h
      · cases h
      · rename_i e hread
        cases h
        exact .inr ⟨e, SyntaxError.arisesIn_of_filtered hread, rfl⟩
    | statement =>
      rcases bind_eq_error_iff.mp h with htag | ⟨s, htag, hstatement⟩
      · exact Statement.comesOf_of_ofTag htag
      · obtain ⟨hs, hplace, hcontent⟩ := Statement.lexed_of_ofTag htag
        have hcomes := comesOf_of_statement hs hstatement
        rw [hplace, hcontent] at hcomes
        exact hcomes

theorem fault_of_finish (h : p.finish = .error err) : ∀ f, err.fault ≠ .content f := by
  intro f hf
  unfold finish at h
  split at h
  · cases h
  · split at h <;> cases h <;> cases hf

end Progress

namespace Template

variable {source : String} {err : TemplateError}

/-- A source that is no template ends within a tag, or one of its tags is rejected, or a block is left open. -/
theorem cases_of_parse_eq_error (h : parse source = .error err) :
    (∃ e, Piece.scan source = .error e ∧ err = .ofUnterminated e) ∨ ∃ scanned, Piece.scan source = .ok scanned ∧
      ((∃ piece ∈ scanned.pieces, ∃ kind content, piece.body = .tag kind content ∧
          err.ComesOf piece.place content) ∨
        ∃ p, Progress.start.readAll scanned.pieces = .ok p ∧ p.finish = .error err) := by
  unfold parse at h
  cases hscan : Piece.scan source with
  | error e =>
    rw [hscan] at h
    cases h
    exact .inl ⟨e, rfl, rfl⟩
  | ok scanned =>
    rw [hscan] at h
    refine .inr ⟨scanned, rfl, ?_⟩
    rcases bind_eq_error_iff.mp h with hread | ⟨p, hread, hfinish⟩
    · obtain ⟨front, piece, back, p, hpieces, -, hstep⟩ := exists_of_foldlM_eq_error hread
      obtain ⟨kind, content, hbody, hcomes⟩ := Progress.comesOf_of_step hstep
      exact .inl ⟨piece, by rw [hpieces]; simp, kind, content, hbody, hcomes⟩
    · exact .inr ⟨p, hread, hfinish⟩

/-- An error that concerns a content arises in the content of a tag of the source. -/
theorem exists_arisesIn_of_parse_eq_error {f : SyntaxFault} (h : parse source = .error err)
    (hf : err.fault = .content f) : ∃ scanned, Piece.scan source = .ok scanned ∧ ∃ piece ∈ scanned.pieces,
      ∃ kind content, piece.body = .tag kind content ∧ ∃ e : SyntaxError, e.ArisesIn content ∧
        err = .inContent piece.place content e := by
  rcases cases_of_parse_eq_error h with ⟨e, -, herr⟩ | ⟨scanned, hscan, hcases⟩
  · rw [herr] at hf
    cases hf
  · refine ⟨scanned, hscan, ?_⟩
    rcases hcases with ⟨piece, hpiece, kind, content, hbody, hcomes⟩ | ⟨p, -, hfinish⟩
    · rcases hcomes with ⟨-, hwhole⟩ | ⟨e, he, herr⟩
      · exact absurd hf (hwhole f)
      · exact ⟨piece, hpiece, kind, content, hbody, e, he, herr⟩
    · exact absurd hf (Progress.fault_of_finish hfinish f)

end Template

end TextTemplate
