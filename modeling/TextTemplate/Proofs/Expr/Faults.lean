import TextTemplate.Proofs.Expr.Remainder

namespace TextTemplate

open Outcome

/-- A fault of the order of tokens, not of what a token is made of. -/
def SyntaxFault.IsOfOrder (fault : SyntaxFault) : Prop :=
  ∀ f, fault ≠ .lexical f

theorem SyntaxFault.isOfOrder_expected (what : String) (found : Token.Kind) : (expected what found).IsOfOrder := by
  intro f hf
  cases hf

namespace Grammar

variable {ts : List Token} {fault : SyntaxFault}

theorem Outcome.fst_map_eq_error_iff {α β : Type} {f : α → β} {o : Outcome α} :
    (o.map f).1 = .error fault ↔ o.1 = .error fault :=
  map_eq_error_iff

theorem isOfOrder_of_segments {span : Span} (h : (segments span ts).1 = .error fault) : fault.IsOfOrder := by
  fun_induction segments span ts with
  | case1 span s₁ name s₂ rest ih => exact ih (Outcome.fst_map_eq_error_iff.mp h)
  | case3 span s₁ t s₂ rest segment hsegment ih => exact ih (Outcome.fst_map_eq_error_iff.mp h)
  | case8 => cases h
  | _ =>
    cases h
    exact SyntaxFault.isOfOrder_expected _ _

theorem isOfOrder_of_primary (h : (primary ts).1 = .error fault) : fault.IsOfOrder := by
  unfold primary at h
  split at h
  case h_5 => exact isOfOrder_of_segments (Outcome.fst_map_eq_error_iff.mp h)
  case h_6 =>
    cases h
    exact SyntaxFault.isOfOrder_expected _ _
  all_goals cases h

theorem isOfOrder_of_arguments (h : (arguments ts).1 = .error fault) : fault.IsOfOrder := by
  fun_induction arguments ts with
  | case1 ts f rest hprimary =>
    cases h
    have hfault : (primary ts).1 = .error fault := by rw [hprimary]
    exact isOfOrder_of_primary hfault
  | case2 ts arg s rest hprimary ih => exact ih (Outcome.fst_map_eq_error_iff.mp h)
  | case3 => cases h

theorem isOfOrder_of_callArguments (h : (callArguments ts).1 = .error fault) : fault.IsOfOrder := by
  unfold callArguments at h
  split at h
  · exact isOfOrder_of_arguments h
  · cases h

theorem isOfOrder_of_calls (h : (calls ts).1 = .error fault) : fault.IsOfOrder := by
  fun_induction calls ts with
  | case1 s₁ name s₂ rest f after hargs =>
    cases h
    have hfault : (callArguments rest).1 = .error fault := by rw [hargs]
    exact isOfOrder_of_callArguments hfault
  | case2 s₁ name s₂ rest args after hargs ih => exact ih (Outcome.fst_map_eq_error_iff.mp h)
  | case3 =>
    cases h
    exact SyntaxFault.isOfOrder_expected _ _
  | case4 => cases h

theorem isOfOrder_of_filtered (h : (filtered ts).1 = .error fault) : fault.IsOfOrder := by
  unfold filtered at h
  split at h
  · rename_i f rest hprimary
    cases h
    have hfault : (primary ts).1 = .error fault := by rw [hprimary]
    exact isOfOrder_of_primary hfault
  · exact isOfOrder_of_calls (Outcome.fst_map_eq_error_iff.mp h)

theorem isOfOrder_of_condition (h : (condition ts).1 = .error fault) : fault.IsOfOrder := by
  unfold condition at h
  split at h
  case h_1 f rest hleft =>
    cases h
    have hfault : (filtered ts).1 = .error fault := by rw [hleft]
    exact isOfOrder_of_filtered hfault
  case h_2 left op span rest hleft =>
    split at h
    case h_1 f after hright =>
      cases h
      have hfault : (filtered rest).1 = .error fault := by rw [hright]
      exact isOfOrder_of_filtered hfault
    case h_2 right after hright =>
      split at h
      · cases h
        intro f hf
        cases hf
      · cases h
  case h_3 => cases h

end Grammar

namespace Cursor

variable {α β : Type} {c d : Cursor} {a : α} {e : SyntaxError}

/-- The fault is at a token that the cursor has still in front of it, or at the end. -/
def FaultAhead (c : Cursor) (e : SyntaxError) : Prop :=
  e.fault.IsOfOrder ∧ ∃ rest, rest <:+ c.rest ∧ e.span = (peek ⟨rest, c.stop⟩).span

/-- The cursor has moved on in its content, or stands where it stood. -/
structure Leads (c d : Cursor) : Prop where
  suffix : d.rest <:+ c.rest
  stop_eq : d.stop = c.stop

theorem Leads.refl (c : Cursor) : c.Leads c :=
  ⟨List.suffix_rfl, rfl⟩

theorem Leads.trans {c c' d : Cursor} (h : c.Leads c') (h' : c'.Leads d) : c.Leads d :=
  ⟨h'.suffix.trans h.suffix, h'.stop_eq.trans h.stop_eq⟩

theorem FaultAhead.of_leads (he : d.FaultAhead e) (h : c.Leads d) : c.FaultAhead e := by
  obtain ⟨horder, rest, hrest, hspan⟩ := he
  refine ⟨horder, rest, hrest.trans h.suffix, ?_⟩
  rw [hspan, h.stop_eq]

theorem faultAhead_of_fail {fault : SyntaxFault} (hfault : fault.IsOfOrder)
    (h : (c.fail fault : Except SyntaxError α × Cursor).1 = .error e) : c.FaultAhead e := by
  cases h
  exact ⟨hfault, c.rest, List.suffix_rfl, rfl⟩

theorem faultAhead_of_parse {rule : List Token → Grammar.Outcome α} (hsuffix : ∀ ts, (rule ts).2 <:+ ts)
    (horder : ∀ {ts fault}, (rule ts).1 = .error fault → fault.IsOfOrder)
    (h : (c.parse rule).1 = .error e) : c.FaultAhead e := by
  unfold parse at h
  split at h
  · cases h
  · rename_i fault rest hrule
    have hrest : rest <:+ c.rest := by
      have hleft := hsuffix c.rest
      rw [hrule] at hleft
      exact hleft
    have hfault : (rule c.rest).1 = .error fault := by rw [hrule]
    have hahead : FaultAhead ⟨rest, c.stop⟩ e := faultAhead_of_fail (horder hfault) h
    exact hahead.of_leads ⟨hrest, rfl⟩

theorem faultAhead_of_expect {kind : Token.Kind} (h : (c.expect kind).1 = .error e) : c.FaultAhead e := by
  unfold expect at h
  split at h
  · cases h
  · exact faultAhead_of_fail (SyntaxFault.isOfOrder_expected _ _) h

theorem faultAhead_of_expectIdentifier {what : String} (h : (c.expectIdentifier what).1 = .error e) :
    c.FaultAhead e := by
  unfold expectIdentifier at h
  split at h
  · cases h
  · exact faultAhead_of_fail (SyntaxFault.isOfOrder_expected _ _) h

theorem faultAhead_of_expectKeyword {keyword : String} (h : (c.expectKeyword keyword).1 = .error e) :
    c.FaultAhead e := by
  unfold expectKeyword at h
  split at h
  · split at h
    · cases h
    · exact faultAhead_of_fail (SyntaxFault.isOfOrder_expected _ _) h
  · exact faultAhead_of_fail (SyntaxFault.isOfOrder_expected _ _) h

theorem isOfOrder_of_leftover? {l : Token.Lexeme} {fault : SyntaxFault} (h : leftover? l = some fault) :
    fault.IsOfOrder := by
  intro f hf
  subst hf
  unfold leftover? at h
  split at h
  case h_3 word =>
    by_cases hword : word = "and" ∨ word = "or" <;> simp [hword] at h
  all_goals cases h

theorem faultAhead_of_expectEnd (h : c.expectEnd = .error e) : c.FaultAhead e := by
  unfold expectEnd at h
  split at h
  · cases h
  · rename_i fault hleft
    cases h
    exact ⟨isOfOrder_of_leftover? hleft, c.rest, List.suffix_rfl, rfl⟩

theorem leads_of_parse {rule : List Token → Grammar.Outcome α} (hsuffix : ∀ ts, (rule ts).2 <:+ ts)
    (h : orFail (c.parse rule) = .ok (a, d)) : c.Leads d := by
  obtain ⟨hrule, hstop⟩ := orFail_parse_eq_ok_iff.mp h
  have hleft := hsuffix c.rest
  rw [hrule] at hleft
  exact ⟨hleft, hstop⟩

theorem leads_advance (c : Cursor) : c.Leads c.advance :=
  ⟨List.tail_suffix c.rest, rfl⟩

theorem leads_of_expect {kind : Token.Kind} {t : Token} (h : orFail (c.expect kind) = .ok (t, d)) : c.Leads d := by
  unfold expect at h
  split at h
  · cases h
    exact leads_advance c
  · cases h

theorem leads_of_expectIdentifier {what : String} {found : String × Span}
    (h : orFail (c.expectIdentifier what) = .ok (found, d)) : c.Leads d := by
  unfold expectIdentifier at h
  split at h
  · cases h
    exact leads_advance c
  · cases h

theorem leads_of_expectKeyword {keyword : String} (h : orFail (c.expectKeyword keyword) = .ok ((), d)) :
    c.Leads d := by
  unfold expectKeyword at h
  split at h
  · split at h
    · cases h
      exact leads_advance c
    · cases h
  · cases h

/-- Reading that goes on behind a first part fails in that part, or behind it. -/
theorem faultAhead_of_bind {o : Except SyntaxError α × Cursor} {k : α × Cursor → Except SyntaxError β}
    (hfirst : o.1 = .error e → c.FaultAhead e) (hleads : ∀ a d, orFail o = .ok (a, d) → c.Leads d)
    (hlater : ∀ a d, orFail o = .ok (a, d) → k (a, d) = .error e → d.FaultAhead e)
    (h : (orFail o >>= k) = .error e) : c.FaultAhead e := by
  rcases bind_eq_error_iff.mp h with hnow | ⟨⟨a, d⟩, hread, hk⟩
  · exact hfirst (map_eq_error_iff.mp hnow)
  · exact (hlater a d hread hk).of_leads (hleads a d hread)

theorem faultAhead_of_parseToEnd {rule : List Token → Grammar.Outcome α} (hsuffix : ∀ ts, (rule ts).2 <:+ ts)
    (horder : ∀ {ts fault}, (rule ts).1 = .error fault → fault.IsOfOrder) (f : α → β)
    (h : (do
      let (a, c) ← orFail (c.parse rule)
      c.expectEnd
      return f a) = .error e) : c.FaultAhead e := by
  refine faultAhead_of_bind (faultAhead_of_parse hsuffix horder) (fun a d => leads_of_parse hsuffix) ?_ h
  intro a d _ hend
  rcases bind_eq_error_iff.mp hend with hnow | ⟨_, _, hreturn⟩
  · exact faultAhead_of_expectEnd hnow
  · cases hreturn

/-- A name, a mark or keyword behind it, and an expression up to the end. -/
theorem faultAhead_of_parseBinding {what : String} {second : Cursor → Except SyntaxError β × Cursor}
    (hsecond : ∀ {c}, (second c).1 = .error e → c.FaultAhead e)
    (hleads : ∀ {c b d}, orFail (second c) = .ok (b, d) → c.Leads d)
    (h : (do
      let ((name, _), c) ← orFail (c.expectIdentifier what)
      let (_, c) ← orFail (second c)
      let (value, c) ← orFail c.filtered
      c.expectEnd
      return (name, value)) = .error e) : c.FaultAhead e := by
  refine faultAhead_of_bind faultAhead_of_expectIdentifier (fun a d => leads_of_expectIdentifier) ?_ h
  intro found d _ h
  refine faultAhead_of_bind hsecond (fun b d => hleads) ?_ h
  intro b d _ h
  exact faultAhead_of_parseToEnd Grammar.suffix_filtered Grammar.isOfOrder_of_filtered (Prod.mk found.1) h

end Cursor

/-- An error of reading a content: the lexer halts there, or a token does not fit, if only the end of the tag. -/
inductive SyntaxError.ArisesIn (content : List Char) : SyntaxError → Prop
  | lexical {e : LexError} (h : Token.lex content = .error e) : ArisesIn content (.ofLexError e)
  | order {ts : Tokens} {fault : SyntaxFault} {t : Token} (h : Token.lex content = .ok ts)
      (ht : t ∈ ts.toList ++ [ts.endToken]) (hfault : fault.IsOfOrder) : ArisesIn content ⟨fault, t.span⟩

namespace SyntaxError

variable {content : List Char} {e : SyntaxError}

theorem arisesIn_of_faultAhead {ts : Tokens} (hlex : Token.lex content = .ok ts) {c : Cursor}
    (hc : Cursor.Leads ⟨ts.toList, ts.stop⟩ c) (h : c.FaultAhead e) : e.ArisesIn content := by
  obtain ⟨horder, rest, hrest, hspan⟩ := h.of_leads hc
  obtain ⟨fault, span⟩ := e
  have hmem : Cursor.peek ⟨rest, ts.stop⟩ ∈ ts.toList ++ [ts.endToken] := by
    cases rest with
    | nil => exact List.mem_append_right _ List.mem_cons_self
    | cons t rest => exact List.mem_append_left _ (hrest.mem List.mem_cons_self)
  change span = _ at hspan
  rw [hspan]
  exact .order hlex hmem horder

theorem arisesIn_of_cursor (h : Cursor.ofContent content = .error e) : e.ArisesIn content := by
  unfold Cursor.ofContent at h
  split at h
  · cases h
  · rename_i lexical hlex
    cases h
    exact .lexical hlex

theorem arisesIn_of_filtered (h : Filtered.ofContent content = .error e) : e.ArisesIn content := by
  rcases bind_eq_error_iff.mp h with hcursor | ⟨c, hcursor, hread⟩
  · exact arisesIn_of_cursor hcursor
  · unfold Cursor.ofContent at hcursor
    split at hcursor
    · rename_i ts hlex
      cases hcursor
      refine arisesIn_of_faultAhead hlex ⟨List.suffix_rfl, rfl⟩ ?_
      exact Cursor.faultAhead_of_parseToEnd Grammar.suffix_filtered Grammar.isOfOrder_of_filtered id hread
    · cases hcursor

end SyntaxError

end TextTemplate
