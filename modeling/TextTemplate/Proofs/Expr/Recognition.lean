import TextTemplate.Proofs.Expr.Derivation

namespace TextTemplate

/-- Without spans. -/
def Primary.bare : Primary → Primary
  | .literal value _ => .literal value ⟨0, 0⟩
  | .path segments _ => .path segments ⟨0, 0⟩

/-- Without spans. -/
def FilterCall.bare (call : FilterCall) : FilterCall :=
  ⟨call.name, ⟨0, 0⟩, call.args.map Primary.bare⟩

/-- Without spans. -/
def Filtered.bare (e : Filtered) : Filtered :=
  ⟨e.base.bare, e.calls.map FilterCall.bare⟩

/-- Without spans. -/
def Condition.bare : Condition → Condition
  | .holds e => .holds e.bare
  | .compares op left right => .compares op left.bare right.bare

namespace Grammar

/-- The tokens do not begin with one of these marks. -/
def StopsAt (marks : List Token.Lexeme) (ts : List Token) : Prop :=
  ∀ t ∈ ts.head?, t.lexeme ∉ marks

/-- The marks that go on with a path, with arguments and with filters. -/
def pathMarks : List Token.Lexeme := [.dot, .leftBracket]

def argumentMarks : List Token.Lexeme := .comma :: pathMarks

def callMarks : List Token.Lexeme := .pipe :: .colon :: argumentMarks

theorem StopsAt.mono {marks more : List Token.Lexeme} {ts : List Token} (h : StopsAt more ts)
    (hsub : marks ⊆ more) : StopsAt marks ts :=
  fun t ht hmem => h t ht (hsub hmem)

theorem stopsAt_nil (marks : List Token.Lexeme) : StopsAt marks [] :=
  fun _ ht => absurd ht (by simp)

theorem stopsAt_cons_iff {marks : List Token.Lexeme} {t : Token} {ts : List Token} :
    StopsAt marks (t :: ts) ↔ t.lexeme ∉ marks := by
  simp [StopsAt]

theorem segments_of_stopsAt {span : Span} {ts : List Token} (h : StopsAt pathMarks ts) :
    segments span ts = (.ok ([], span), ts) := by
  unfold segments
  split <;> simp_all [StopsAt, pathMarks]

variable {ts rest : List Token}

theorem exists_of_lexemes_eq_cons {l : Token.Lexeme} {ls : List Token.Lexeme}
    (h : ts.map (·.lexeme) = l :: ls) : ∃ span more, ts = ⟨l, span⟩ :: more ∧ more.map (·.lexeme) = ls := by
  obtain ⟨⟨l', span⟩, more, hts, rfl, hmore⟩ := List.map_eq_cons_iff.mp h
  exact ⟨span, more, hts, hmore⟩

theorem exists_segments_of_derives {ls : List Token.Lexeme} {more : List Segment} (h : DerivesSegments ls more)
    (hts : ts.map (·.lexeme) = ls) (hrest : StopsAt pathMarks rest) (span : Span) :
    ∃ whole, segments span (ts ++ rest) = (.ok (more, whole), rest) := by
  induction h generalizing ts span with
  | done =>
    rw [List.map_eq_nil_iff.mp hts]
    exact ⟨span, segments_of_stopsAt hrest⟩
  | field h ih =>
    obtain ⟨s₁, ts₁, rfl, hts₁⟩ := exists_of_lexemes_eq_cons hts
    obtain ⟨s₂, ts₂, rfl, hts₂⟩ := exists_of_lexemes_eq_cons hts₁
    obtain ⟨whole, hmore⟩ := ih hts₂ (span.join s₂)
    exact ⟨whole, by simp [segments, hmore, Outcome.map, Except.map]⟩
  | subscript hl h ih =>
    obtain ⟨s₁, ts₁, rfl, hts₁⟩ := exists_of_lexemes_eq_cons hts
    obtain ⟨s₂, ts₂, rfl, hts₂⟩ := exists_of_lexemes_eq_cons hts₁
    obtain ⟨s₃, ts₃, rfl, hts₃⟩ := exists_of_lexemes_eq_cons hts₂
    obtain ⟨whole, hmore⟩ := ih hts₃ (span.join s₃)
    have hsegment := subscript?_eq_some_iff.mpr hl
    exact ⟨whole, by simp [segments, hsegment, hmore, Outcome.map, Except.map]⟩

theorem exists_primary_of_derives {ls : List Token.Lexeme} {e : Primary} (h : DerivesPrimary ls e)
    (hts : ts.map (·.lexeme) = ls) (hrest : StopsAt pathMarks rest) :
    ∃ read, primary (ts ++ rest) = (.ok read, rest) ∧ read.bare = e.bare := by
  cases h with
  | number | string | boolean | nil =>
    obtain ⟨s, more, rfl, hmore⟩ := exists_of_lexemes_eq_cons hts
    rw [List.map_eq_nil_iff.mp hmore]
    exact ⟨_, rfl, rfl⟩
  | path h =>
    obtain ⟨s, more, rfl, hmore⟩ := exists_of_lexemes_eq_cons hts
    obtain ⟨whole, hsegments⟩ := exists_segments_of_derives h hmore hrest s
    refine ⟨.path _ whole, ?_, rfl⟩
    rw [List.cons_append, primary, hsegments]
    rfl

/-- Behind one argument a comma leads to others, and nothing else does. -/
theorem arguments_of_primary {arg : Primary} (h : primary ts = (.ok arg, rest)) :
    (StopsAt [.comma] rest → arguments ts = (.ok [arg], rest)) ∧
      ∀ s more, rest = ⟨.comma, s⟩ :: more → arguments ts = (arguments more).map (arg :: ·) := by
  rw [arguments]
  split
  case h_1 f after hfault =>
    rw [h] at hfault
    cases hfault
  case h_2 other s after hother =>
    rw [h] at hother
    cases hother
    refine ⟨fun hstop => absurd hstop (by simp [stopsAt_cons_iff]), ?_⟩
    intro s' more hmore
    cases hmore
    rfl
  case h_3 other after hcomma hother =>
    rw [h] at hother
    cases hother
    exact ⟨fun _ => rfl, fun s more hmore => absurd hmore (hcomma s more)⟩

theorem exists_arguments_of_derives {ls : List Token.Lexeme} {args : List Primary} (h : DerivesArguments ls args)
    (hts : ts.map (·.lexeme) = ls) (hrest : StopsAt argumentMarks rest) :
    ∃ read, arguments (ts ++ rest) = (.ok read, rest) ∧ read.map Primary.bare = args.map Primary.bare := by
  induction h generalizing ts with
  | last h =>
    obtain ⟨read, hread, hbare⟩ := exists_primary_of_derives h hts (hrest.mono (by simp [argumentMarks]))
    refine ⟨[read], (arguments_of_primary hread).1 (hrest.mono (by simp [argumentMarks])), ?_⟩
    rw [List.map_singleton, List.map_singleton, hbare]
  | more h hargs ih =>
    obtain ⟨first, others, rfl, hfirst, hothers⟩ := List.map_eq_append_iff.mp hts
    obtain ⟨s, behind, rfl, hbehind⟩ := exists_of_lexemes_eq_cons hothers
    have hcomma : StopsAt pathMarks (⟨.comma, s⟩ :: (behind ++ rest)) := by simp [stopsAt_cons_iff, pathMarks]
    obtain ⟨arg, harg, hbare⟩ := exists_primary_of_derives h hfirst hcomma
    obtain ⟨read, hread, hbares⟩ := ih hbehind
    refine ⟨arg :: read, ?_, by rw [List.map_cons, List.map_cons, hbare, hbares]⟩
    rw [List.append_assoc, List.cons_append, (arguments_of_primary harg).2 s _ rfl, hread]
    rfl

theorem exists_callArguments_of_derives {ls : List Token.Lexeme} {args : List Primary}
    (h : DerivesCallArguments ls args) (hts : ts.map (·.lexeme) = ls)
    (hrest : StopsAt (.colon :: argumentMarks) rest) :
    ∃ read, callArguments (ts ++ rest) = (.ok read, rest) ∧ read.map Primary.bare = args.map Primary.bare := by
  cases h with
  | none =>
    rw [List.map_eq_nil_iff.mp hts, List.nil_append]
    refine ⟨[], ?_, rfl⟩
    unfold callArguments
    split
    · simp [stopsAt_cons_iff] at hrest
    · rfl
  | some h =>
    obtain ⟨s, behind, rfl, hbehind⟩ := exists_of_lexemes_eq_cons hts
    exact exists_arguments_of_derives h hbehind (hrest.mono (by simp))

theorem calls_of_stopsAt (h : StopsAt [.pipe] ts) : calls ts = (.ok [], ts) := by
  rw [calls.eq_def]
  split <;> simp_all [StopsAt]

theorem calls_of_callArguments {name : String} {s₁ s₂ : Span} {args : List Primary} {after : List Token}
    (h : callArguments rest = (.ok args, after)) :
    calls (⟨.pipe, s₁⟩ :: ⟨.identifier name, s₂⟩ :: rest) = (calls after).map (⟨name, s₂, args⟩ :: ·) := by
  rw [calls]
  split
  · rename_i hfault
    rw [h] at hfault
    cases hfault
  · rename_i hargs
    rw [h] at hargs
    cases hargs
    rfl

theorem exists_calls_of_derives {ls : List Token.Lexeme} {cs : List FilterCall} (h : DerivesCalls ls cs)
    (hts : ts.map (·.lexeme) = ls) (hrest : StopsAt callMarks rest) :
    ∃ read, calls (ts ++ rest) = (.ok read, rest) ∧ read.map FilterCall.bare = cs.map FilterCall.bare := by
  induction h generalizing ts with
  | done =>
    rw [List.map_eq_nil_iff.mp hts]
    exact ⟨[], calls_of_stopsAt (hrest.mono (by simp [callMarks])), rfl⟩
  | @call name _ _ _ _ _ hargs h ih =>
    obtain ⟨s₁, ts₁, rfl, hts₁⟩ := exists_of_lexemes_eq_cons hts
    obtain ⟨s₂, ts₂, rfl, hts₂⟩ := exists_of_lexemes_eq_cons hts₁
    obtain ⟨first, others, rfl, hfirst, hothers⟩ := List.map_eq_append_iff.mp hts₂
    obtain ⟨read, hread, hbares⟩ := ih hothers
    -- Behind the arguments comes the next filter, or what follows all of them.
    have hnext : StopsAt (.colon :: argumentMarks) (others ++ rest) := by
      cases h with
      | done =>
        rw [List.map_eq_nil_iff.mp hothers]
        exact hrest.mono (by simp [callMarks])
      | call =>
        obtain ⟨s, others, rfl, -⟩ := exists_of_lexemes_eq_cons hothers
        simp [stopsAt_cons_iff, argumentMarks, pathMarks]
    obtain ⟨args, hread', hbare⟩ := exists_callArguments_of_derives hargs hfirst hnext
    refine ⟨⟨name, s₂, args⟩ :: read, ?_, ?_⟩
    · rw [List.cons_append, List.cons_append, List.append_assoc, calls_of_callArguments hread', hread]
      rfl
    · rw [List.map_cons, List.map_cons, hbares, FilterCall.bare, FilterCall.bare, hbare]

theorem exists_filtered_of_derives {ls : List Token.Lexeme} {e : Filtered} (h : DerivesFiltered ls e)
    (hts : ts.map (·.lexeme) = ls) (hrest : StopsAt callMarks rest) :
    ∃ read, filtered (ts ++ rest) = (.ok read, rest) ∧ read.bare = e.bare := by
  obtain ⟨hbase, hcalls⟩ := h
  obtain ⟨first, others, rfl, hfirst, hothers⟩ := List.map_eq_append_iff.mp hts
  obtain ⟨cs, hcs, hbares⟩ := exists_calls_of_derives hcalls hothers hrest
  have hnext : StopsAt pathMarks (others ++ rest) := by
    cases hcalls with
    | done =>
      rw [List.map_eq_nil_iff.mp hothers]
      exact hrest.mono (by simp [callMarks, argumentMarks, pathMarks])
    | call =>
      obtain ⟨s, others, rfl, -⟩ := exists_of_lexemes_eq_cons hothers
      simp [stopsAt_cons_iff, pathMarks]
  obtain ⟨base, hread, hbare⟩ := exists_primary_of_derives hbase hfirst hnext
  refine ⟨⟨base, cs⟩, ?_, by rw [Filtered.bare, Filtered.bare, hbare, hbares]⟩
  rw [List.append_assoc, filtered, hread]
  simp only [hcs]
  rfl

theorem exists_condition_of_derives {ls : List Token.Lexeme} {e : Condition} (h : DerivesCondition ls e)
    (hts : ts.map (·.lexeme) = ls) : ∃ read, condition ts = (.ok read, []) ∧ read.bare = e.bare := by
  cases h with
  | holds h =>
    obtain ⟨read, hread, hbare⟩ := exists_filtered_of_derives h hts (stopsAt_nil _)
    refine ⟨.holds read, ?_, congrArg Condition.holds hbare⟩
    rw [List.append_nil] at hread
    rw [condition, hread]
  | @compares _ _ op _ _ hleft hright =>
    obtain ⟨first, others, rfl, hfirst, hothers⟩ := List.map_eq_append_iff.mp hts
    obtain ⟨s, behind, rfl, hbehind⟩ := exists_of_lexemes_eq_cons hothers
    have hcomparison : StopsAt callMarks (⟨.comparison op, s⟩ :: behind) := by
      simp [stopsAt_cons_iff, callMarks, argumentMarks, pathMarks]
    obtain ⟨left, hreadLeft, hbareLeft⟩ := exists_filtered_of_derives hleft hfirst hcomparison
    obtain ⟨right, hreadRight, hbareRight⟩ := exists_filtered_of_derives hright hbehind (stopsAt_nil _)
    rw [List.append_nil] at hreadRight
    refine ⟨.compares op left right, ?_, by rw [Condition.bare, Condition.bare, hbareLeft, hbareRight]⟩
    rw [condition, hreadLeft]
    simp [hreadRight, comparison?]

theorem exists_lexemes_eq (ls : List Token.Lexeme) : ∃ ts : List Token, ts.map (·.lexeme) = ls :=
  ⟨ls.map (⟨·, ⟨0, 0⟩⟩), by simp [Function.comp_def]⟩

/-- The grammar is not ambiguous. -/
theorem bare_eq_of_derivesCondition {ls : List Token.Lexeme} {e other : Condition} (h : DerivesCondition ls e)
    (hother : DerivesCondition ls other) : e.bare = other.bare := by
  obtain ⟨ts, hts⟩ := exists_lexemes_eq ls
  obtain ⟨read, hread, hbare⟩ := exists_condition_of_derives h hts
  obtain ⟨read', hread', hbare'⟩ := exists_condition_of_derives hother hts
  rw [hread] at hread'
  cases hread'
  exact hbare.symm.trans hbare'

end Grammar

namespace Cursor

open Outcome

/-- A whole content is read by a rule exactly if the rule takes all tokens of the content. -/
theorem ofContent_parseToEnd_eq_ok_iff {α : Type} {rule : List Token → Grammar.Outcome α}
    (hrule : ∀ ts, (rule ts).2 <:+ ts) {content : List Char} {a : α} :
    (do
      let c ← ofContent content
      let (e, c) ← orFail (c.parse rule)
      c.expectEnd
      return e) = .ok a ↔ ∃ ts, Token.lex content = .ok ts ∧ rule ts.toList = (.ok a, []) := by
  rw [bind_eq_ok_iff, ofContent]
  constructor
  · rintro ⟨c, hc, hread⟩
    cases hlex : Token.lex content with
    | error e => simp [hlex] at hc
    | ok ts =>
      rw [hlex] at hc
      cases hc
      obtain ⟨e, he, rfl⟩ := (parseToEnd_eq_ok_iff hrule (Open.of_lex hlex) id).mp hread
      exact ⟨ts, rfl, he⟩
  · rintro ⟨ts, hlex, hread⟩
    rw [hlex]
    exact ⟨_, rfl, (parseToEnd_eq_ok_iff hrule (Open.of_lex hlex) id).mpr ⟨a, hread, rfl⟩⟩

/-- A rule that takes only what is derived, and takes all that is, reads a whole content as its derived tree. -/
theorem ofContent_parseToEnd_eq_derived {α : Type} {rule : List Token → Grammar.Outcome α}
    {derives : List Token.Lexeme → α → Prop} {bare : α → α} (hrule : ∀ ts, (rule ts).2 <:+ ts)
    (hsound : ∀ {ts rest a}, rule ts = (.ok a, rest) → Grammar.Took derives ts a rest)
    (hcomplete : ∀ {ts : List Token} {a}, derives (ts.map (·.lexeme)) a →
      ∃ read, rule ts = (.ok read, []) ∧ bare read = bare a) {content : List Char} {t : α} :
    (do
      let c ← ofContent content
      let (e, c) ← orFail (c.parse rule)
      c.expectEnd
      return e).map bare = .ok t ↔
      ∃ ts, Token.lex content = .ok ts ∧ ∃ e, derives (ts.toList.map (·.lexeme)) e ∧ bare e = t := by
  simp only [map_eq_ok_iff, ofContent_parseToEnd_eq_ok_iff hrule]
  constructor
  · rintro ⟨e, ⟨ts, hlex, hread⟩, hbare⟩
    obtain ⟨used, hused, hderives⟩ := hsound hread
    rw [List.append_nil] at hused
    exact ⟨ts, hlex, e, hused ▸ hderives, hbare⟩
  · rintro ⟨ts, hlex, e, hderives, hbare⟩
    obtain ⟨read, hread, hsame⟩ := hcomplete hderives
    exact ⟨read, ⟨ts, hlex, hread⟩, hsame.trans hbare⟩

end Cursor

open Grammar

/-- A content is read as a condition, or as an expression without comparison, exactly if its tokens derive one, and as
the derived tree, of which there is only one. -/
theorem ofContent_accepts_exactly_the_grammar (content : List Char) :
    (∀ t, (Condition.ofContent content).map Condition.bare = .ok t ↔ ∃ ts, Token.lex content = .ok ts ∧
      ∃ e, DerivesCondition (ts.toList.map (·.lexeme)) e ∧ e.bare = t) ∧
    (∀ t, (Filtered.ofContent content).map Filtered.bare = .ok t ↔ ∃ ts, Token.lex content = .ok ts ∧
      ∃ e, DerivesFiltered (ts.toList.map (·.lexeme)) e ∧ e.bare = t) ∧
    ∀ ls e other, DerivesCondition ls e → DerivesCondition ls other → e.bare = other.bare := by
  refine ⟨?_, ?_, fun ls e other => bare_eq_of_derivesCondition⟩
  · intro t
    exact Cursor.ofContent_parseToEnd_eq_derived suffix_condition took_of_condition
      fun h => exists_condition_of_derives h rfl
  · intro t
    refine Cursor.ofContent_parseToEnd_eq_derived suffix_filtered took_of_filtered ?_
    intro ts e h
    have hread := exists_filtered_of_derives h rfl (stopsAt_nil _)
    rw [List.append_nil] at hread
    exact hread

/-- A comma goes on with the arguments, and a comparison ends the filters in front of it. -/
example : ((Condition.ofContent "a.b[0] | f: 1, 'x' | g == nil".toList).map Condition.bare).toOption =
    some (.compares .eq
      ⟨.path [.key "a", .key "b", .index 0] ⟨0, 0⟩,
        [⟨"f", ⟨0, 0⟩, [.literal (.number (Number.ofInt 1)) ⟨0, 0⟩, .literal (.string "x") ⟨0, 0⟩]⟩,
          ⟨"g", ⟨0, 0⟩, []⟩]⟩
      ⟨.literal .nil ⟨0, 0⟩, []⟩) := by decide +kernel

end TextTemplate
