import Mathlib.Data.List.Forall2
import TextTemplate.Proofs.Expr.Boundaries
import TextTemplate.Proofs.Expr.Relocation

namespace TextTemplate

open Outcome

/-- From byte `span.start` to byte `span.stop` the content reads `text`; both fall between characters. -/
def Span.Cuts (span : Span) (content text : List Char) : Prop :=
  ∃ front back, content = front ++ text ++ back ∧ span.start = Token.byteSize front ∧
    span.stop = Token.byteSize (front ++ text)

namespace Token

/-- The pieces of a content that its tokens are read from. -/
structure Sliced (content : List Char) (ts : Tokens) (slices : List (List Char)) : Prop where
  cuts : List.Forall₂ (fun t text => t.span.Cuts content text) (ts.toList ++ [ts.endToken]) (slices ++ [[]])
  inOrder : (ts.toList ++ [ts.endToken]).Pairwise fun t u => t.span.stop ≤ u.span.start
  blank_between : ∀ front c back, content = front ++ c :: back → Text.isBlank c = true ∨
    ∃ t ∈ ts.toList, t.span.start ≤ byteSize front ∧ byteSize (front ++ [c]) ≤ t.span.stop
  alone : List.Forall₂ (fun t text => lex text = .ok ⟨[⟨t.lexeme, ⟨0, byteSize text⟩⟩], byteSize text⟩)
    ts.toList slices

/-- The slices one after the other, with a gap in front of each of them and one at the end. -/
def spaced (gap : Nat → List Char) : List (List Char) → List Char
  | [] => gap 0
  | slice :: rest => gap 0 ++ slice ++ spaced (fun i => gap (i + 1)) rest

variable {c : Char} {l : Lexeme} {text : List Char}

theorem Run.of_blanks {offset stop : Nat} {blanks cs ahead : List Char} {tokens : List Token}
    (hblanks : ∀ c ∈ blanks, Text.isBlank c = true) (h : Run (offset + byteSize blanks) cs tokens stop ahead) :
    Run offset (blanks ++ cs) tokens stop ahead := by
  induction blanks generalizing offset with
  | nil => exact h
  | cons c blanks ih =>
    rw [List.forall_mem_cons] at hblanks
    rw [byteSize, ← Nat.add_assoc] at h
    exact .blank hblanks.1 (ih hblanks.2 h)

/-- A token takes its text, and no more if what stands behind is set apart. -/
theorem Lexeme.WrittenAs.run {offset stop : Nat} {behind : List Char} {tokens : List Token} (h : l.WrittenAs text)
    (happart : Apart [] behind) (hrun : Run (offset + byteSize text) behind tokens stop []) :
    Run offset (text ++ behind) (⟨l, ⟨offset, offset + byteSize text⟩⟩ :: tokens) stop [] := by
  obtain ⟨c, tail, rfl, hc, hcut⟩ := h
  have halone : cut c (tail ++ []) = .lexeme l (c :: tail) := by rwa [List.append_nil]
  have hcut' : cut c (tail ++ behind) = .lexeme l (c :: tail) := cut_of_apart halone happart
  exact .token hc hcut' rfl hrun

/-- White space around a token moves it and adds nothing. -/
theorem lex_padded {front back : List Char} (h : l.WrittenAs text) (hfront : ∀ c ∈ front, Text.isBlank c = true)
    (hback : ∀ c ∈ back, Text.isBlank c = true) : lex (front ++ text ++ back) =
      .ok ⟨[⟨l, ⟨byteSize front, byteSize (front ++ text)⟩⟩], byteSize (front ++ text ++ back)⟩ := by
  have happart : Apart [] back := fun d hd => .inl (hback d (List.mem_of_mem_head? hd))
  have hend : Run (byteSize front + byteSize text) back [] (byteSize front + byteSize text + byteSize back) [] := by
    have hblanks : Run (byteSize front + byteSize text) (back ++ []) []
        (byteSize front + byteSize text + byteSize back) [] := Run.of_blanks hback .done
    rwa [List.append_nil] at hblanks
  have htoken := h.run happart hend
  rw [← Nat.zero_add (byteSize front)] at htoken
  have hrun := Run.of_blanks hfront htoken
  rw [Nat.zero_add, ← List.append_assoc] at hrun
  rw [byteSize_append (front ++ text), byteSize_append front]
  exact hrun.lex_eq

theorem lex_of_writtenAs (h : l.WrittenAs text) :
    lex text = .ok ⟨[⟨l, ⟨0, byteSize text⟩⟩], byteSize text⟩ := by
  have hnone : ∀ c ∈ ([] : List Char), Text.isBlank c = true := fun c hc => absurd hc List.not_mem_nil
  have hpadded := lex_padded h hnone hnone
  rw [List.append_nil, List.nil_append] at hpadded
  exact hpadded

section Gaps

variable {gap : Nat → List Char} {slices : List (List Char)}

theorem apart_spaced (hblank : ∀ i, ∀ c ∈ gap i, Text.isBlank c = true) (hgap : slices ≠ [] → gap 0 ≠ []) :
    Apart [] (spaced gap slices) := by
  cases hfirst : gap 0 with
  | nil =>
    cases slices with
    | nil =>
      rw [spaced, hfirst]
      exact apart_nil []
    | cons slice slices => exact absurd hfirst (hgap (by simp))
  | cons c more =>
    have hc : Text.isBlank c = true := hblank 0 c (by simp [hfirst])
    cases slices with
    | nil =>
      rw [spaced, hfirst]
      exact apart_of_blank hc []
    | cons slice slices =>
      rw [spaced, hfirst]
      exact apart_of_blank hc []

theorem exists_run_spaced {ls : List Lexeme} (h : List.Forall₂ Lexeme.WrittenAs ls slices)
    (hblank : ∀ i, ∀ c ∈ gap i, Text.isBlank c = true) (hgap : ∀ i, 0 < i → i < slices.length → gap i ≠ [])
    (offset : Nat) : ∃ tokens stop, Run offset (spaced gap slices) tokens stop [] ∧ tokens.map (·.lexeme) = ls := by
  induction h generalizing gap offset with
  | nil =>
    have hrun : Run offset (gap 0 ++ []) [] (offset + byteSize (gap 0)) [] := Run.of_blanks (hblank 0) .done
    rw [List.append_nil] at hrun
    exact ⟨[], _, hrun, rfl⟩
  | @cons l slice ls slices hslice h ih =>
    have hblank' : ∀ i, ∀ c ∈ gap (i + 1), Text.isBlank c = true := fun i => hblank (i + 1)
    have hgap' : ∀ i, 0 < i → i < slices.length → gap (i + 1) ≠ [] := by
      intro i hi hlt
      exact hgap (i + 1) (by omega) (by simpa using hlt)
    obtain ⟨tokens, stop, hrun, htokens⟩ :=
      ih hblank' hgap' (offset + byteSize (gap 0) + byteSize slice)
    have happart : Apart [] (spaced (fun i => gap (i + 1)) slices) := by
      apply apart_spaced hblank'
      intro hne
      have hlength := List.length_pos_iff.mpr hne
      exact hgap 1 (by omega) (by simpa using hlength)
    have hwhole := Run.of_blanks (hblank 0) (hslice.run happart hrun)
    rw [← List.append_assoc] at hwhole
    exact ⟨_, stop, hwhole, by rw [List.map_cons, htokens]⟩

end Gaps

theorem exists_forall₂ {α β : Type} {R : α → β → Prop} {as : List α} (h : ∀ a ∈ as, ∃ b, R a b) :
    ∃ bs, List.Forall₂ R as bs := by
  induction as with
  | nil => exact ⟨[], .nil⟩
  | cons a as ih =>
    rw [List.forall_mem_cons] at h
    obtain ⟨b, hb⟩ := h.1
    obtain ⟨bs, hbs⟩ := ih h.2
    exact ⟨b :: bs, .cons hb hbs⟩

/-- A content has a slice for every token, and the slice is that token alone. -/
theorem exists_sliced {content : List Char} {ts : Tokens} (h : lex content = .ok ts) :
    ∃ slices, Sliced content ts slices ∧ List.Forall₂ Lexeme.WrittenAs (ts.toList.map (·.lexeme)) slices := by
  have hrun : Run 0 content ts.toList ts.stop [] := Run.of_lexFrom_eq_ok h
  have hstop : ts.stop = byteSize content := by
    obtain ⟨passed, hpassed, hstop⟩ := hrun.exists_passed
    rw [hstop, hpassed, List.append_nil, Nat.zero_add]
  have hslice : ∀ t ∈ ts.toList, ∃ text, t.span.Cuts content text ∧ t.lexeme.WrittenAs text := by
    intro t ht
    obtain ⟨front, text, back, hcontent, hwritten, hspan⟩ := hrun.exists_written_of_mem ht
    rw [Nat.zero_add, Nat.zero_add] at hspan
    exact ⟨text, ⟨front, back, hcontent, by rw [hspan], by rw [hspan]⟩, hwritten⟩
  obtain ⟨slices, hslices⟩ := exists_forall₂ hslice
  have hcuts : List.Forall₂ (fun t text => t.span.Cuts content text) ts.toList slices :=
    hslices.imp fun t text hpair => hpair.1
  have hwritten : List.Forall₂ (fun t text => t.lexeme.WrittenAs text) ts.toList slices :=
    hslices.imp fun t text hpair => hpair.2
  have hend : ts.endToken.span.Cuts content [] := ⟨content, [], by simp, hstop, by simp [Tokens.endToken, hstop]⟩
  refine ⟨slices, ⟨List.rel_append hcuts (.cons hend .nil), ?_, ?_, ?_⟩, List.forall₂_map_left_iff.mpr hwritten⟩
  · rw [List.pairwise_append]
    refine ⟨hrun.pairwise_spans, List.pairwise_singleton _ _, ?_⟩
    intro t ht u hu
    rw [List.mem_singleton.mp hu]
    exact (hrun.span_of_mem ht).2
  · intro front c back hcontent
    have hpos := c.utf8Size_pos
    have hpassed : 0 + byteSize front < ts.stop := by
      rw [hstop, hcontent, byteSize_append, byteSize]
      omega
    rcases hrun.covered_or_blank hcontent hpassed with ⟨t, ht, hstart, hend⟩ | hblank
    · refine .inr ⟨t, ht, by omega, ?_⟩
      rw [byteSize_append, byteSize, byteSize]
      omega
    · exact .inl hblank
  · exact hwritten.imp fun t text => lex_of_writtenAs

end Token

namespace Grammar

/-- What is read if all tokens have to be taken. -/
def Outcome.whole {α : Type} (o : Outcome α) : Except SyntaxFault α :=
  o.1.bind fun a =>
    match o.2.head?.bind fun t => Cursor.leftover? t.lexeme with
    | none => .ok a
    | some fault => .error fault

theorem Outcome.whole_relocate {α : Type} (g : α → α) (f : Span → Span) (o : Outcome α) :
    (o.relocate g f).whole = o.whole.map g := by
  obtain ⟨fault | a, rest⟩ := o
  · rfl
  · cases rest with
    | nil => rfl
    | cons t rest =>
      change (match Cursor.leftover? t.lexeme with | none => .ok (g a) | some fault => .error fault) =
        (match Cursor.leftover? t.lexeme with | none => .ok a | some fault => .error fault : Except _ _).map g
      cases Cursor.leftover? t.lexeme <;> rfl

end Grammar

namespace Cursor

/-- Spans aside, a fault of a whole content is one of its tokens. -/
theorem mapError_parseToEnd {α : Type} {rule : List Token → Grammar.Outcome α} {content : List Char} {ts : Tokens}
    (h : Token.lex content = .ok ts) :
    (do
      let c ← ofContent content
      let (e, c) ← orFail (c.parse rule)
      c.expectEnd
      return e).mapError SyntaxError.fault = (rule ts.toList).whole := by
  have hcursor : ofContent content = .ok ⟨ts.toList, ts.stop⟩ := by rw [ofContent, h]
  rw [hcursor]
  change Except.mapError SyntaxError.fault (do
      let (e, c) ← orFail (parse rule ⟨ts.toList, ts.stop⟩)
      c.expectEnd
      return e) = _
  rw [parse]
  rcases rule ts.toList with ⟨fault | a, rest⟩
  · rfl
  · cases rest with
    | nil => rfl
    | cons t rest =>
      change (expectEnd ⟨t :: rest, ts.stop⟩ >>= fun _ => pure a).mapError SyntaxError.fault =
        (match Cursor.leftover? t.lexeme with | none => .ok a | some fault => .error fault : Except _ _)
      rw [expectEnd]
      change ((match leftover? t.lexeme with
        | none => .ok ()
        | some fault => .error ⟨fault, t.span⟩ : Except SyntaxError Unit) >>= fun _ => pure a).mapError _ = _
      cases leftover? t.lexeme <;> rfl

/-- Contents of the same tokens are read alike, spans aside. -/
theorem parseToEnd_congr {α : Type} {rule : List Token → Grammar.Outcome α} {g : α → α}
    (hrule : ∀ ts, rule (ts.map (Token.relocate Span.erased)) = (rule ts).relocate g Span.erased)
    {content other : List Char} {ts us : Tokens} (h : Token.lex content = .ok ts) (hother : Token.lex other = .ok us)
    (hsame : us.toList.map (·.lexeme) = ts.toList.map (·.lexeme)) :
    ((do
      let c ← ofContent other
      let (e, c) ← orFail (c.parse rule)
      c.expectEnd
      return e).map g).mapError SyntaxError.fault =
    ((do
      let c ← ofContent content
      let (e, c) ← orFail (c.parse rule)
      c.expectEnd
      return e).map g).mapError SyntaxError.fault := by
  have herased : ∀ tokens : List Token, tokens.map (Token.relocate Span.erased) =
      (tokens.map (·.lexeme)).map fun l => ⟨l, ⟨0, 0⟩⟩ := by
    intro tokens
    rw [List.map_map]
    rfl
  have hswap : ∀ x : Except SyntaxError α, (x.map g).mapError SyntaxError.fault =
      (x.mapError SyntaxError.fault).map g := by
    intro x
    cases x <;> rfl
  rw [hswap, hswap, mapError_parseToEnd h, mapError_parseToEnd hother, ← Grammar.Outcome.whole_relocate g Span.erased,
    ← Grammar.Outcome.whole_relocate g Span.erased, ← hrule, ← hrule, herased, herased, hsame]

end Cursor

/-- The slices of a content are its tokens, each read alone as what it is; with any other white space between them
they are the same tokens and the same expression, or the same fault. -/
theorem Token.spacing_is_free (content : List Char) (ts : Tokens) (h : lex content = .ok ts) :
    ∃ slices, Sliced content ts slices ∧ ∀ gap : Nat → List Char, (∀ i, ∀ c ∈ gap i, Text.isBlank c = true) →
      (∀ i, 0 < i → i < slices.length → gap i ≠ []) →
      (∃ us, lex (spaced gap slices) = .ok us ∧ us.toList.map (·.lexeme) = ts.toList.map (·.lexeme)) ∧
      ((Filtered.ofContent (spaced gap slices)).map Filtered.bare).mapError SyntaxError.fault =
        ((Filtered.ofContent content).map Filtered.bare).mapError SyntaxError.fault ∧
      ((Condition.ofContent (spaced gap slices)).map Condition.bare).mapError SyntaxError.fault =
        ((Condition.ofContent content).map Condition.bare).mapError SyntaxError.fault := by
  obtain ⟨slices, hsliced, hwritten⟩ := exists_sliced h
  refine ⟨slices, hsliced, ?_⟩
  intro gap hblank hgap
  obtain ⟨tokens, stop, hrun, htokens⟩ := exists_run_spaced hwritten hblank hgap 0
  have hlex : lex (spaced gap slices) = .ok ⟨tokens, stop⟩ := hrun.lex_eq
  refine ⟨⟨_, hlex, htokens⟩, ?_, ?_⟩
  · refine Cursor.parseToEnd_congr ?_ h hlex htokens
    intro us
    rw [Grammar.filtered_relocate Span.keepsJoin_erased, funext Filtered.relocate_erased]
  · refine Cursor.parseToEnd_congr ?_ h hlex htokens
    intro us
    rw [Grammar.condition_relocate Span.keepsJoin_erased, funext Condition.relocate_erased]

/-- Tokens that stood side by side, a minus within a number among them, may stand on lines of their own. -/
theorem Token.spacing_is_free_dense : ∃ ts, lex "a<=-1.5".toList = .ok ts ∧
    ts.toList.map Token.kind = [.identifier, .comparison .le, .number] ∧
    ∃ slices, Sliced "a<=-1.5".toList ts slices ∧ ∃ us, lex (spaced (fun _ => ['\n', ' ']) slices) = .ok us ∧
      us.toList.map (·.lexeme) = ts.toList.map (·.lexeme) := by
  have hkinds : (lex "a<=-1.5".toList).map (fun ts => ts.toList.map Token.kind) =
      .ok [.identifier, .comparison .le, .number] := by decide +kernel
  obtain ⟨ts, hts, htokens⟩ := map_eq_ok_iff.mp hkinds
  obtain ⟨slices, hsliced, hspaced⟩ := spacing_is_free "a<=-1.5".toList ts hts
  have hblank : ∀ c ∈ ['\n', ' '], Text.isBlank c = true :=
    List.forall_mem_cons.mpr ⟨by decide, List.forall_mem_singleton.mpr (by decide)⟩
  obtain ⟨hlex, -⟩ := hspaced (fun _ => ['\n', ' ']) (fun _ => hblank) (by simp)
  exact ⟨ts, hts, htokens, slices, hsliced, hlex⟩

end TextTemplate
