import TextTemplate.Proofs.Expr.Remainder
import TextTemplate.Proofs.Outcome
import TextTemplate.Template.Parser

namespace TextTemplate

namespace Cursor

variable {α : Type} {c d : Cursor} {a : α}

theorem orFail_expectIdentifier_eq_ok_iff {what name : String} {span : Span} :
    orFail (c.expectIdentifier what) = .ok ((name, span), d) ↔
      c.rest = ⟨.identifier name, span⟩ :: d.rest ∧ d.stop = c.stop := by
  obtain ⟨rest, stop⟩ := c
  obtain ⟨after, stop'⟩ := d
  cases rest with
  | nil => simp [orFail, expectIdentifier, peek, fail, Except.map]
  | cons t rest =>
    obtain ⟨l, s⟩ := t
    cases l
    case identifier word =>
      simp only [orFail, expectIdentifier, peek, advance, Except.map, List.head?_cons, Option.getD_some,
        List.tail_cons, Except.ok.injEq, Prod.mk.injEq, Cursor.mk.injEq, List.cons.injEq, Token.mk.injEq,
        Token.Lexeme.identifier.injEq, eq_comm (a := stop), and_assoc]
    all_goals simp [orFail, expectIdentifier, peek, fail, Except.map]

theorem orFail_expectKeyword_eq_ok_iff {keyword : String} :
    orFail (c.expectKeyword keyword) = .ok ((), d) ↔
      (∃ span, c.rest = ⟨.identifier keyword, span⟩ :: d.rest) ∧ d.stop = c.stop := by
  obtain ⟨rest, stop⟩ := c
  obtain ⟨after, stop'⟩ := d
  cases rest with
  | nil => simp [orFail, expectKeyword, peek, fail, Except.map]
  | cons t rest =>
    obtain ⟨l, s⟩ := t
    cases l
    case identifier word =>
      by_cases hw : word = keyword
      · simp [orFail, expectKeyword, peek, advance, Except.map, hw, eq_comm (a := stop)]
      · simp [orFail, expectKeyword, peek, fail, Except.map, hw]
    all_goals simp [orFail, expectKeyword, peek, fail, Except.map]

theorem orFail_expect_assign_eq_ok_iff {t : Token} :
    orFail (c.expect .assign) = .ok (t, d) ↔
      (∃ span, t = ⟨.assign, span⟩ ∧ c.rest = ⟨.assign, span⟩ :: d.rest) ∧ d.stop = c.stop := by
  obtain ⟨rest, stop⟩ := c
  obtain ⟨after, stop'⟩ := d
  cases rest with
  | nil => simp [orFail, expect, peek, fail, Except.map, Token.kind, Token.Lexeme.kind]
  | cons u rest =>
    obtain ⟨l, s⟩ := u
    cases l
    case assign =>
      have h : orFail (expect .assign ⟨⟨.assign, s⟩ :: rest, stop⟩) =
          .ok (⟨.assign, s⟩, ⟨rest, stop⟩) := rfl
      simp only [h, Except.ok.injEq, Prod.mk.injEq, Cursor.mk.injEq, List.cons.injEq, Token.mk.injEq, true_and]
      constructor
      · rintro ⟨rfl, rfl, rfl⟩
        exact ⟨⟨s, rfl, rfl, rfl⟩, rfl⟩
      · rintro ⟨⟨span, rfl, rfl, rfl⟩, rfl⟩
        exact ⟨rfl, rfl, rfl⟩
    all_goals simp [orFail, expect, peek, fail, Except.map, Token.kind, Token.Lexeme.kind]

end Cursor

namespace Statement

open Cursor Outcome

variable {s : Statement}

/-- A tag is a statement if its content begins with a name; that is its keyword. -/
theorem ofTag_eq_ok_iff {place : Place} {content : List Char} :
    ofTag place content = .ok s ↔
      ∃ ts span rest, Token.lex content = .ok ts ∧
        ts.toList = ⟨.identifier s.keyword, span⟩ :: rest ∧
        s = ⟨s.keyword, ⟨rest, ts.stop⟩, place, content⟩ := by
  unfold ofTag Cursor.ofContent
  cases hlex : Token.lex content with
  | error e => simp
  | ok ts =>
    obtain ⟨tokens, stop⟩ := ts
    cases tokens with
    | nil => simp [atEnd, peek, Token.kind, Token.Lexeme.kind]
    | cons t rest =>
      obtain ⟨l, span⟩ := t
      cases l
      case identifier word =>
        simp only [atEnd, peek, advance, expectIdentifier, Token.kind, Token.Lexeme.kind, List.head?_cons,
          Option.getD_some, List.tail_cons]
        obtain ⟨keyword, cursor, place', content'⟩ := s
        constructor
        · rintro ⟨rfl, rfl, rfl, rfl⟩
          exact ⟨_, span, rest, rfl, rfl, rfl⟩
        · rintro ⟨_, _, _, hts, htokens, hs⟩
          cases hts
          simp only [List.cons.injEq, Token.mk.injEq, Token.Lexeme.identifier.injEq] at htokens
          obtain ⟨⟨rfl, -⟩, rfl⟩ := htokens
          rw [hs]
          rfl
      all_goals simp [atEnd, peek, expectIdentifier, fail, Token.kind, Token.Lexeme.kind]

theorem read_eq_ok_iff {α : Type} {reader : Cursor → Except SyntaxError α} {a : α} :
    s.read reader = .ok a ↔ reader s.cursor = .ok a := by
  unfold read
  cases reader s.cursor <;> simp

theorem bare_eq_ok_iff (h : s.cursor.Open) : s.bare = .ok () ↔ s.cursor.rest = [] := by
  rw [bare, read_eq_ok_iff, expectEnd_eq_ok_iff h]

theorem condition_eq_ok_iff (h : s.cursor.Open) {e : Condition} :
    s.condition = .ok e ↔ Grammar.condition s.cursor.rest = (.ok e, []) := by
  rw [condition, read_eq_ok_iff]
  refine (parseToEnd_eq_ok_iff Grammar.suffix_condition h id).trans ?_
  simp only [id_eq, exists_eq_right]

/-- A name, one more token and an expression up to the end, as loops and assignments have them. -/
theorem parseBinding_eq_ok_iff {β : Type} {what : String} {second : Cursor → Except SyntaxError β × Cursor}
    {l : Token.Lexeme} (hsecond : ∀ c d : Cursor, (∃ b, orFail (second c) = .ok (b, d)) ↔
      (∃ span, c.rest = ⟨l, span⟩ :: d.rest) ∧ d.stop = c.stop)
    {c : Cursor} (h : c.Open) {name : String} {value : Filtered} :
    (do
      let ((name, _), c) ← orFail (c.expectIdentifier what)
      let (_, c) ← orFail (second c)
      let (value, c) ← orFail c.filtered
      c.expectEnd
      return (name, value)) = .ok (name, value) ↔
      ∃ s₁ s₂ rest, c.rest = ⟨.identifier name, s₁⟩ :: ⟨l, s₂⟩ :: rest ∧
        Grammar.filtered rest = (.ok value, []) := by
  rw [bind_eq_ok_iff]
  constructor
  · intro hread
    obtain ⟨⟨⟨word, s₁⟩, c₁⟩, hname, hread⟩ := hread
    obtain ⟨⟨b, c₂⟩, hmark, hread⟩ := bind_eq_ok_iff.mp hread
    obtain ⟨hname, -⟩ := orFail_expectIdentifier_eq_ok_iff.mp hname
    obtain ⟨⟨s₂, hmark⟩, -⟩ := (hsecond c₁ c₂).mp ⟨b, hmark⟩
    have hopen : c₂.Open := fun t ht => h t (by rw [hname, hmark]; simp [ht])
    obtain ⟨e, hfiltered, heq⟩ :=
      (parseToEnd_eq_ok_iff Grammar.suffix_filtered hopen fun value => (word, value)).mp hread
    obtain ⟨rfl, rfl⟩ := Prod.mk.inj heq
    exact ⟨s₁, s₂, c₂.rest, by rw [hname, hmark], hfiltered⟩
  · intro hread
    obtain ⟨s₁, s₂, rest, htokens, hfiltered⟩ := hread
    have hopen : Open ⟨rest, c.stop⟩ := fun t ht => h t (by rw [htokens]; simp [ht])
    have hname : orFail (c.expectIdentifier what) =
        .ok ((name, s₁), ⟨⟨l, s₂⟩ :: rest, c.stop⟩) :=
      orFail_expectIdentifier_eq_ok_iff.mpr ⟨htokens, rfl⟩
    obtain ⟨b, hmark⟩ := (hsecond ⟨⟨l, s₂⟩ :: rest, c.stop⟩ ⟨rest, c.stop⟩).mpr ⟨⟨s₂, rfl⟩, rfl⟩
    refine ⟨_, hname, bind_eq_ok_iff.mpr ⟨_, hmark, ?_⟩⟩
    exact (parseToEnd_eq_ok_iff Grammar.suffix_filtered hopen fun value => (name, value)).mpr
      ⟨value, hfiltered, rfl⟩

theorem loopHead_eq_ok_iff (h : s.cursor.Open) {name : String} {source : Filtered} :
    s.loopHead = .ok (name, source) ↔
      ∃ s₁ s₂ rest, s.cursor.rest = ⟨.identifier name, s₁⟩ :: ⟨.identifier "in", s₂⟩ :: rest ∧
        Grammar.filtered rest = (.ok source, []) := by
  rw [loopHead, read_eq_ok_iff]
  refine parseBinding_eq_ok_iff ?_ h
  intro c d
  rw [← orFail_expectKeyword_eq_ok_iff]
  exact ⟨fun ⟨_, hin⟩ => hin, fun hin => ⟨(), hin⟩⟩

theorem assignment_eq_ok_iff (h : s.cursor.Open) {name : String} {value : Filtered} :
    s.assignment = .ok (name, value) ↔
      ∃ s₁ s₂ rest, s.cursor.rest = ⟨.identifier name, s₁⟩ :: ⟨.assign, s₂⟩ :: rest ∧
        Grammar.filtered rest = (.ok value, []) := by
  rw [assignment, read_eq_ok_iff]
  refine parseBinding_eq_ok_iff ?_ h
  intro c d
  constructor
  · intro hassign
    obtain ⟨t, hassign⟩ := hassign
    obtain ⟨⟨span, -, hrest⟩, hstop⟩ := orFail_expect_assign_eq_ok_iff.mp hassign
    exact ⟨⟨span, hrest⟩, hstop⟩
  · intro hassign
    obtain ⟨⟨span, hrest⟩, hstop⟩ := hassign
    exact ⟨_, orFail_expect_assign_eq_ok_iff.mpr ⟨⟨span, rfl, hrest⟩, hstop⟩⟩

theorem closer?_eq_some_iff {closer : Closer} : s.closer? = some closer ↔ s.keyword = closer.word := by
  unfold closer?
  cases closer <;> split <;> simp_all [Closer.word]

end Statement

end TextTemplate
