import TextTemplate.Proofs.Template.Marks
import TextTemplate.Proofs.Template.Statement

namespace TextTemplate

open Outcome

/-- The mark of a keyword that stands alone. -/
def Closer.mark? : Closer → Option Mark
  | elsif => none
  | otherwise => some .otherwise
  | endif => some .endif
  | endfor => some .endfor

theorem Mark.worded_of_closer {closer : Closer} {m : Mark} (h : closer.mark? = some m) (span : Span) :
    Worded [⟨.identifier closer.word, span⟩] m := by
  cases closer <;> cases h
  · exact .otherwise
  · exact .endif
  · exact .endfor

theorem Mark.Worded.exists_keyword {ts : List Token} {m : Mark} (h : Worded ts m) :
    ∃ keyword span rest, ts = ⟨.identifier keyword, span⟩ :: rest := by
  cases h <;> exact ⟨_, _, _, rfl⟩

namespace Progress

/-- What a mark at `place` makes of a progress, if it can stand there. -/
def take? (p : Progress) (place : Place) : Mark → Option Progress
  | .text content => some (p.push (.text content))
  | .output e => some (p.push (.output e))
  | .assign name value => some (p.push (.assign name value))
  | .conditional condition => some (p.enter (.conditional [] (some condition)) place)
  | .loop name source => some (p.enter (.loop name source) place)
  | .elsif next =>
    match p.frames with
    | ⟨.conditional done (some condition), opened, before⟩ :: below =>
      some ⟨⟨.conditional (done ++ [(condition, p.body.toList)]) (some next), opened, before⟩ :: below, #[]⟩
    | _ => none
  | .otherwise =>
    match p.frames with
    | ⟨.conditional done (some condition), opened, before⟩ :: below =>
      some ⟨⟨.conditional (done ++ [(condition, p.body.toList)]) none, opened, before⟩ :: below, #[]⟩
    | _ => none
  | .endif =>
    match p.frames with
    | ⟨.conditional done (some condition), _, before⟩ :: below =>
      let chain := Chain.ofBranches (done ++ [(condition, p.body.toList)]) .stop
      some ⟨below, before.push (.conditional chain)⟩
    | ⟨.conditional done none, _, before⟩ :: below =>
      let chain := Chain.ofBranches done (.otherwise p.body.toList)
      some ⟨below, before.push (.conditional chain)⟩
    | _ => none
  | .endfor =>
    match p.frames with
    | ⟨.loop name source, _, before⟩ :: below =>
      some ⟨below, before.push (.loop name source p.body.toList)⟩
    | _ => none

/-- All that can happen when a mark at `place` is taken. -/
inductive Taken (place : Place) : Progress → Mark → Progress → Prop
  | text {p : Progress} {content : String} : Taken place p (.text content) (p.push (.text content))
  | output {p : Progress} {e : Filtered} : Taken place p (.output e) (p.push (.output e))
  | assign {p : Progress} {name : String} {value : Filtered} :
      Taken place p (.assign name value) (p.push (.assign name value))
  | conditional {p : Progress} {c : Condition} :
      Taken place p (.conditional c) (p.enter (.conditional [] (some c)) place)
  | loop {p : Progress} {name : String} {source : Filtered} :
      Taken place p (.loop name source) (p.enter (.loop name source) place)
  | elsif {done : List (Condition × List Node)} {c next : Condition} {opened : Place} {before body : Array Node}
      {below : List Frame} :
      Taken place ⟨⟨.conditional done (some c), opened, before⟩ :: below, body⟩ (.elsif next)
        ⟨⟨.conditional (done ++ [(c, body.toList)]) (some next), opened, before⟩ :: below, #[]⟩
  | otherwise {done : List (Condition × List Node)} {c : Condition} {opened : Place} {before body : Array Node}
      {below : List Frame} :
      Taken place ⟨⟨.conditional done (some c), opened, before⟩ :: below, body⟩ .otherwise
        ⟨⟨.conditional (done ++ [(c, body.toList)]) none, opened, before⟩ :: below, #[]⟩
  | endif {done : List (Condition × List Node)} {c : Condition} {opened : Place} {before body : Array Node}
      {below : List Frame} :
      Taken place ⟨⟨.conditional done (some c), opened, before⟩ :: below, body⟩ .endif
        ⟨below, before.push (.conditional (Chain.ofBranches (done ++ [(c, body.toList)]) .stop))⟩
  | endifBehindElse {done : List (Condition × List Node)} {opened : Place} {before body : Array Node}
      {below : List Frame} :
      Taken place ⟨⟨.conditional done none, opened, before⟩ :: below, body⟩ .endif
        ⟨below, before.push (.conditional (Chain.ofBranches done (.otherwise body.toList)))⟩
  | endfor {name : String} {source : Filtered} {opened : Place} {before body : Array Node}
      {below : List Frame} :
      Taken place ⟨⟨.loop name source, opened, before⟩ :: below, body⟩ .endfor
        ⟨below, before.push (.loop name source body.toList)⟩

theorem taken_of_take? {p p' : Progress} {place : Place} {m : Mark} (h : p.take? place m = some p') :
    Taken place p m p' := by
  obtain ⟨frames, body⟩ := p
  cases m with
  | text | output | assign | conditional | loop =>
    cases h
    constructor
  | elsif | otherwise | endif | endfor =>
    rcases frames with _ | ⟨⟨⟨done, _ | c⟩ | ⟨name, source⟩, opened, before⟩, below⟩ <;> cases h <;> constructor

variable {p p' : Progress} {s : Statement}

theorem close_elsif_eq_ok_iff : p.close s .elsif = .ok p' ↔
    ∃ c, s.condition = .ok c ∧ p.take? s.place (.elsif c) = some p' := by
  obtain ⟨frames, body⟩ := p
  rcases frames with _ | ⟨⟨⟨done, pending⟩ | ⟨name, source⟩, opened, before⟩, below⟩
  · simp [close, take?]
  · cases pending <;> simp [close, closeConditional, take?, bind_eq_ok_iff, pure, Except.pure]
  · simp [close, take?]

theorem close_bare_eq_ok_iff {closer : Closer} {m : Mark} (hm : closer.mark? = some m) :
    p.close s closer = .ok p' ↔ s.bare = .ok () ∧ p.take? s.place m = some p' := by
  obtain ⟨frames, body⟩ := p
  rcases frames with _ | ⟨⟨⟨done, pending⟩ | ⟨name, source⟩, opened, before⟩, below⟩
  · cases closer <;> cases hm <;> simp [close, take?]
  · cases closer <;> cases hm <;> cases pending <;>
      simp [close, closeConditional, take?, check_eq_ok_iff, pure, Except.pure]
  · cases closer <;> cases hm <;> simp [close, take?, check_eq_ok_iff, pure, Except.pure]

theorem statement_of_closer {closer : Closer} (h : s.keyword = closer.word) :
    p.statement s = p.close s closer := by
  rw [statement, Statement.closer?_eq_some_iff.mpr h]

theorem statement_if_eq_ok_iff (h : s.keyword = "if") : p.statement s = .ok p' ↔
    ∃ c, s.condition = .ok c ∧ p.take? s.place (.conditional c) = some p' := by
  simp [statement, Statement.closer?, h, take?, bind_eq_ok_iff, pure, Except.pure]

theorem statement_for_eq_ok_iff (h : s.keyword = "for") : p.statement s = .ok p' ↔
    ∃ name source, s.loopHead = .ok (name, source) ∧ p.take? s.place (.loop name source) = some p' := by
  simp [statement, Statement.closer?, h, take?, bind_eq_ok_iff, pure, Except.pure]

theorem statement_assign_eq_ok_iff (h : s.keyword = "assign") : p.statement s = .ok p' ↔
    ∃ name value, s.assignment = .ok (name, value) ∧ p.take? s.place (.assign name value) = some p' := by
  simp [statement, Statement.closer?, h, take?, bind_eq_ok_iff, pure, Except.pure]

theorem statement_eq_ok_iff (h : s.cursor.Open) (span : Span) : p.statement s = .ok p' ↔
    ∃ m, Mark.Worded (⟨.identifier s.keyword, span⟩ :: s.cursor.rest) m ∧ p.take? s.place m = some p' := by
  constructor
  · intro hs
    cases hcloser : s.closer? with
    | some closer =>
      have hword := Statement.closer?_eq_some_iff.mp hcloser
      rw [statement_of_closer hword] at hs
      rw [hword]
      cases hmark : closer.mark? with
      | none =>
        obtain rfl : closer = .elsif := by cases closer <;> simp_all [Closer.mark?]
        obtain ⟨c, hc, htake⟩ := close_elsif_eq_ok_iff.mp hs
        exact ⟨.elsif c, .elsif ((Statement.condition_eq_ok_iff h).mp hc), htake⟩
      | some m =>
        obtain ⟨hbare, htake⟩ := (close_bare_eq_ok_iff hmark).mp hs
        rw [(Statement.bare_eq_ok_iff h).mp hbare]
        exact ⟨m, Mark.worded_of_closer hmark span, htake⟩
    | none =>
      by_cases hif : s.keyword = "if"
      · obtain ⟨c, hc, htake⟩ := (statement_if_eq_ok_iff hif).mp hs
        rw [hif]
        exact ⟨.conditional c, .conditional ((Statement.condition_eq_ok_iff h).mp hc), htake⟩
      by_cases hfor : s.keyword = "for"
      · obtain ⟨name, source, hhead, htake⟩ := (statement_for_eq_ok_iff hfor).mp hs
        obtain ⟨s₁, s₂, rest, htokens, hsource⟩ := (Statement.loopHead_eq_ok_iff h).mp hhead
        rw [hfor, htokens]
        exact ⟨.loop name source, .loop hsource, htake⟩
      by_cases hassign : s.keyword = "assign"
      · obtain ⟨name, value, hhead, htake⟩ := (statement_assign_eq_ok_iff hassign).mp hs
        obtain ⟨s₁, s₂, rest, htokens, hvalue⟩ := (Statement.assignment_eq_ok_iff h).mp hhead
        rw [hassign, htokens]
        exact ⟨.assign name value, .assign hvalue, htake⟩
      · exact absurd hs (by simp [statement, hcloser])
  · rintro ⟨m, hworded, htake⟩
    generalize htokens : (⟨.identifier s.keyword, span⟩ :: s.cursor.rest : List Token) = tokens at hworded
    cases hworded <;>
      simp only [List.cons.injEq, Token.mk.injEq, Token.Lexeme.identifier.injEq] at htokens <;>
      obtain ⟨⟨hword, -⟩, hrest⟩ := htokens
    case conditional hc =>
      exact (statement_if_eq_ok_iff hword).mpr ⟨_, (Statement.condition_eq_ok_iff h).mpr (hrest ▸ hc), htake⟩
    case elsif hc =>
      rw [statement_of_closer (show s.keyword = Closer.elsif.word from hword)]
      exact close_elsif_eq_ok_iff.mpr ⟨_, (Statement.condition_eq_ok_iff h).mpr (hrest ▸ hc), htake⟩
    case otherwise =>
      rw [statement_of_closer (show s.keyword = Closer.otherwise.word from hword), close_bare_eq_ok_iff rfl]
      exact ⟨(Statement.bare_eq_ok_iff h).mpr hrest, htake⟩
    case endif =>
      rw [statement_of_closer (show s.keyword = Closer.endif.word from hword), close_bare_eq_ok_iff rfl]
      exact ⟨(Statement.bare_eq_ok_iff h).mpr hrest, htake⟩
    case loop hsource =>
      exact (statement_for_eq_ok_iff hword).mpr
        ⟨_, _, (Statement.loopHead_eq_ok_iff h).mpr ⟨_, _, _, hrest, hsource⟩, htake⟩
    case endfor =>
      rw [statement_of_closer (show s.keyword = Closer.endfor.word from hword), close_bare_eq_ok_iff rfl]
      exact ⟨(Statement.bare_eq_ok_iff h).mpr hrest, htake⟩
    case assign hvalue =>
      exact (statement_assign_eq_ok_iff hword).mpr
        ⟨_, _, (Statement.assignment_eq_ok_iff h).mpr ⟨_, _, _, hrest, hvalue⟩, htake⟩

/-- A piece is taken exactly if it spells a mark that can stand there. -/
theorem step_eq_ok_iff {piece : Piece} : p.step piece = .ok p' ↔
    ∃ m, piece.body.Spells m ∧ p.take? piece.place m = some p' := by
  obtain ⟨body, place, stop⟩ := piece
  cases body with
  | text content =>
    constructor
    · intro h
      exact ⟨_, .text, congrArg some (Except.ok.inj h)⟩
    · rintro ⟨m, ⟨⟩, htake⟩
      exact congrArg Except.ok (Option.some.inj htake)
  | tag kind content =>
    cases kind with
    | output =>
      simp only [step]
      constructor
      · intro h
        cases he : Filtered.ofContent content with
        | error e => simp [he] at h
        | ok e =>
          rw [he] at h
          exact ⟨.output e, .output he, congrArg some (Except.ok.inj h)⟩
      · rintro ⟨m, hspells, htake⟩
        cases hspells with
        | output he =>
          rw [he]
          exact congrArg Except.ok (Option.some.inj htake)
    | statement =>
      simp only [step]
      rw [bind_eq_ok_iff]
      constructor
      · rintro ⟨s, htag, hs⟩
        obtain ⟨ts, span, rest, hlex, htokens, heq⟩ := Statement.ofTag_eq_ok_iff.mp htag
        have hopen : Cursor.Open ⟨rest, ts.stop⟩ := by
          intro t ht
          exact Cursor.Open.of_lex hlex t (by rw [htokens]; exact List.mem_cons_of_mem _ ht)
        rw [heq] at hs
        obtain ⟨m, hworded, htake⟩ := (statement_eq_ok_iff hopen span).mp hs
        exact ⟨m, .statement hlex (by rw [htokens]; exact hworded), htake⟩
      · rintro ⟨m, hspells, htake⟩
        cases hspells with
        | statement hlex hworded =>
          rename_i ts
          obtain ⟨keyword, span, rest, htokens⟩ := hworded.exists_keyword
          have hopen : Cursor.Open ⟨rest, ts.stop⟩ := by
            intro t ht
            exact Cursor.Open.of_lex hlex t (by rw [htokens]; exact List.mem_cons_of_mem _ ht)
          refine ⟨⟨keyword, ⟨rest, ts.stop⟩, place, content⟩, ?_, ?_⟩
          · exact Statement.ofTag_eq_ok_iff.mpr ⟨ts, span, rest, hlex, htokens, rfl⟩
          · exact (statement_eq_ok_iff hopen span).mpr ⟨m, by rw [← htokens]; exact hworded, htake⟩

end Progress

end TextTemplate
