import Mathlib.Data.List.Infix
import TextTemplate.Expr.Cursor
import TextTemplate.Proofs.Outcome

namespace TextTemplate

namespace Grammar

theorem suffix_segments (span : Span) (ts : List Token) : (segments span ts).2 <:+ ts := by
  fun_induction segments span ts with
  | case1 span s₁ name s₂ rest ih => exact (ih.trans (List.suffix_cons _ _)).trans (List.suffix_cons _ _)
  | case2 => exact List.suffix_cons _ _
  | case3 span s₁ t s₂ rest segment h ih =>
    exact ((ih.trans (List.suffix_cons _ _)).trans (List.suffix_cons _ _)).trans (List.suffix_cons _ _)
  | case4 => exact List.suffix_cons _ _
  | case5 => exact (List.suffix_cons _ _).trans (List.suffix_cons _ _)
  | case6 => exact List.suffix_cons _ _
  | case7 => exact List.nil_suffix
  | case8 => exact List.suffix_rfl

theorem suffix_primary (ts : List Token) : (primary ts).2 <:+ ts := by
  unfold primary
  split
  case h_5 name s rest => exact (suffix_segments s rest).trans (List.suffix_cons _ _)
  case h_6 => exact List.suffix_rfl
  all_goals exact List.suffix_cons _ _

theorem suffix_of_primary {ts rest : List Token} {r : Except SyntaxFault Primary}
    (h : primary ts = (r, rest)) : rest <:+ ts := by
  have hs := suffix_primary ts
  rw [h] at hs
  exact hs

theorem suffix_arguments (ts : List Token) : (arguments ts).2 <:+ ts := by
  fun_induction arguments ts with
  | case1 ts f rest h => exact suffix_of_primary h
  | case2 ts arg s rest h ih =>
    exact (ih.trans (List.suffix_cons _ _)).trans (suffix_of_primary h)
  | case3 ts arg rest hcomma h => exact suffix_of_primary h

theorem suffix_callArguments (ts : List Token) : (callArguments ts).2 <:+ ts := by
  unfold callArguments
  split
  · exact (suffix_arguments _).trans (List.suffix_cons _ _)
  · exact List.suffix_rfl

theorem suffix_of_callArguments {ts rest : List Token} {r : Except SyntaxFault (List Primary)}
    (h : callArguments ts = (r, rest)) : rest <:+ ts := by
  have hs := suffix_callArguments ts
  rw [h] at hs
  exact hs

theorem suffix_calls (ts : List Token) : (calls ts).2 <:+ ts := by
  fun_induction calls ts with
  | case1 s₁ name s₂ rest f after h =>
    exact ((suffix_of_callArguments h).trans (List.suffix_cons _ _)).trans (List.suffix_cons _ _)
  | case2 s₁ name s₂ rest args after h ih =>
    exact ((ih.trans (suffix_of_callArguments h)).trans (List.suffix_cons _ _)).trans (List.suffix_cons _ _)
  | case3 => exact List.suffix_cons _ _
  | case4 => exact List.suffix_rfl

theorem suffix_filtered (ts : List Token) : (filtered ts).2 <:+ ts := by
  unfold filtered
  split
  case h_1 f rest h => exact suffix_of_primary h
  case h_2 base rest h => exact (suffix_calls rest).trans (suffix_of_primary h)

theorem suffix_of_filtered {ts rest : List Token} {r : Except SyntaxFault Filtered}
    (h : filtered ts = (r, rest)) : rest <:+ ts := by
  have hs := suffix_filtered ts
  rw [h] at hs
  exact hs

theorem suffix_condition (ts : List Token) : (condition ts).2 <:+ ts := by
  unfold condition
  split
  case h_1 f rest h => exact suffix_of_filtered h
  case h_2 left op s rest h =>
    have hrest := (List.suffix_cons _ _).trans (suffix_of_filtered h)
    split
    case h_1 f after hright => exact (suffix_of_filtered hright).trans hrest
    case h_2 right after hright =>
      split
      · exact (suffix_of_filtered hright).trans hrest
      · exact (suffix_of_filtered hright).trans hrest
  case h_3 left rest hop h => exact suffix_of_filtered h

end Grammar

namespace Token

theorem lexeme_ne_endOfTag_of_cut {c : Char} {rest taken : List Char} {l : Lexeme}
    (h : cut c rest = .lexeme l taken) : l ≠ .endOfTag := by
  rintro rfl
  unfold cut at h
  split at h
  · unfold cutNumber at h
    simp only at h
    split at h <;> simp at h
  · split at h
    · unfold cutString at h
      simp only at h
      split at h <;> simp at h
    · split at h
      · unfold cutName at h
        simp only [Cut.lexeme.injEq] at h
        have hname := h.1
        unfold ofName at hname
        split at hname <;> simp at hname
      · unfold cutMark at h
        split at h <;> simp at h

theorem lexeme_ne_endOfTag_of_lexFrom {offset : Nat} {cs : List Char} {ts : Tokens}
    (h : lexFrom offset cs = .ok ts) : ∀ t ∈ ts.toList, t.lexeme ≠ .endOfTag := by
  fun_induction lexFrom offset cs generalizing ts with
  | case1 offset =>
    simp only [Except.ok.injEq] at h
    subst h
    simp
  | case2 offset c rest hblank ih => exact ih h
  | case3 offset c rest hblank f taken hcut => simp at h
  | case4 offset c rest hblank l taken hcut next =>
    rename_i ih
    cases hrest : lexFrom next ((c :: rest).drop taken.length) with
    | error e => simp [hrest, Except.map] at h
    | ok more =>
      simp only [hrest, Except.map, Except.ok.injEq] at h
      subst h
      intro t ht
      rcases List.mem_cons.mp ht with rfl | ht
      · exact lexeme_ne_endOfTag_of_cut hcut
      · exact ih hrest t ht

end Token

namespace Cursor

open Outcome

/-- No token that is left stands for the end of the tag. -/
def Open (c : Cursor) : Prop :=
  ∀ t ∈ c.rest, t.lexeme ≠ .endOfTag

theorem Open.of_lex {content : List Char} {ts : Tokens} (h : Token.lex content = .ok ts) :
    Open ⟨ts.toList, ts.stop⟩ :=
  Token.lexeme_ne_endOfTag_of_lexFrom h

theorem Open.suffix {c : Cursor} (h : c.Open) {rest : List Token} (hs : rest <:+ c.rest) :
    Open ⟨rest, c.stop⟩ :=
  fun t ht => h t (hs.mem ht)

theorem expectEnd_eq_ok_iff {c : Cursor} (h : c.Open) : c.expectEnd = .ok () ↔ c.rest = [] := by
  obtain ⟨rest, stop⟩ := c
  cases rest with
  | nil => simp [expectEnd, peek, leftover?]
  | cons t rest =>
    have ht : t.lexeme ≠ .endOfTag := h t List.mem_cons_self
    have hleft : leftover? t.lexeme ≠ none := by
      unfold leftover?
      split <;> simp_all
    obtain ⟨fault, hfault⟩ := Option.ne_none_iff_exists'.mp hleft
    simp [expectEnd, peek, hfault]

variable {α : Type} {c d : Cursor} {a : α}

theorem orFail_parse_eq_ok_iff {rule : List Token → Grammar.Outcome α} :
    orFail (c.parse rule) = .ok (a, d) ↔ rule c.rest = (.ok a, d.rest) ∧ d.stop = c.stop := by
  obtain ⟨rest, stop⟩ := c
  obtain ⟨after, stop'⟩ := d
  unfold parse orFail
  rcases rule rest with ⟨r, left⟩
  cases r with
  | error fault => simp [fail, Except.map]
  | ok b =>
    simp only [Except.map, Except.ok.injEq, Prod.mk.injEq, Cursor.mk.injEq]
    exact ⟨fun ⟨hb, hl, hs⟩ => ⟨⟨hb, hl⟩, hs.symm⟩, fun ⟨⟨hb, hl⟩, hs⟩ => ⟨hb, hl, hs.symm⟩⟩

/-- An expression at the end of a tag has to take all tokens that are left. -/
theorem parseToEnd_eq_ok_iff {β : Type} {rule : List Token → Grammar.Outcome α}
    (hrule : ∀ ts, (rule ts).2 <:+ ts) (h : c.Open) (f : α → β) {b : β} :
    (do
      let (a, c) ← orFail (c.parse rule)
      c.expectEnd
      return f a) = .ok b ↔ ∃ a, rule c.rest = (.ok a, []) ∧ f a = b := by
  rw [bind_eq_ok_iff]
  constructor
  · rintro ⟨⟨a, d⟩, hparse, hend⟩
    obtain ⟨hread, hstop⟩ := orFail_parse_eq_ok_iff.mp hparse
    obtain ⟨_, hempty, hb⟩ := bind_eq_ok_iff.mp hend
    have hopen : d.Open := by
      have hsuffix := hrule c.rest
      rw [hread] at hsuffix
      exact h.suffix hsuffix
    rw [(expectEnd_eq_ok_iff hopen).mp hempty] at hread
    exact ⟨a, hread, Except.ok.inj hb⟩
  · rintro ⟨a, hread, rfl⟩
    refine ⟨(a, ⟨[], c.stop⟩), orFail_parse_eq_ok_iff.mpr ⟨hread, rfl⟩, ?_⟩
    rfl

end Cursor

end TextTemplate
