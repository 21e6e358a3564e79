import TextTemplate.Proofs.Expr.Remainder

namespace TextTemplate

namespace Grammar

/-- The segment that a token between brackets stands for: a name, or a number that is whole and not negative. A
place beyond the last of a 64-bit word stands for the last one. -/
inductive DerivesSubscript : Token.Lexeme → Segment → Prop
  | name {name : String} : DerivesSubscript (.string name) (.key name)
  | place {units : Int} {storable : Number.Storable units.natAbs} {n : Nat}
      (h : units = n * Number.unitsPerOne) :
      DerivesSubscript (.number (.finite units storable)) (.index (min n (Nat.pow 2 64 - 1)))

/-- `('.' identifier | '[' number ']' | '[' string ']')*` -/
inductive DerivesSegments : List Token.Lexeme → List Segment → Prop
  | done : DerivesSegments [] []
  | field {name : String} {ls : List Token.Lexeme} {more : List Segment} (h : DerivesSegments ls more) :
      DerivesSegments (.dot :: .identifier name :: ls) (.key name :: more)
  | subscript {l : Token.Lexeme} {segment : Segment} {ls : List Token.Lexeme} {more : List Segment}
      (hl : DerivesSubscript l segment) (h : DerivesSegments ls more) :
      DerivesSegments (.leftBracket :: l :: .rightBracket :: ls) (segment :: more)

/-- A literal, or an identifier with segments behind it. -/
inductive DerivesPrimary : List Token.Lexeme → Primary → Prop
  | number {n : Number} {span : Span} : DerivesPrimary [.number n] (.literal (.number n) span)
  | string {s : String} {span : Span} : DerivesPrimary [.string s] (.literal (.string s) span)
  | boolean {b : Bool} {span : Span} : DerivesPrimary [.boolean b] (.literal (.boolean b) span)
  | nil {span : Span} : DerivesPrimary [.nil] (.literal .nil span)
  | path {name : String} {ls : List Token.Lexeme} {more : List Segment} {span : Span}
      (h : DerivesSegments ls more) : DerivesPrimary (.identifier name :: ls) (.path (.key name :: more) span)

/-- `primary (',' primary)*` -/
inductive DerivesArguments : List Token.Lexeme → List Primary → Prop
  | last {ls : List Token.Lexeme} {arg : Primary} (h : DerivesPrimary ls arg) : DerivesArguments ls [arg]
  | more {ls ms : List Token.Lexeme} {arg : Primary} {args : List Primary} (h : DerivesPrimary ls arg)
      (hargs : DerivesArguments ms args) : DerivesArguments (ls ++ .comma :: ms) (arg :: args)

/-- `(':' primary (',' primary)*)?` -/
inductive DerivesCallArguments : List Token.Lexeme → List Primary → Prop
  | none : DerivesCallArguments [] []
  | some {ls : List Token.Lexeme} {args : List Primary} (h : DerivesArguments ls args) :
      DerivesCallArguments (.colon :: ls) args

/-- `('|' identifier (':' primary (',' primary)*)?)*` -/
inductive DerivesCalls : List Token.Lexeme → List FilterCall → Prop
  | done : DerivesCalls [] []
  | call {name : String} {span : Span} {ls ms : List Token.Lexeme} {args : List Primary} {calls : List FilterCall}
      (hargs : DerivesCallArguments ls args) (h : DerivesCalls ms calls) :
      DerivesCalls (.pipe :: .identifier name :: (ls ++ ms)) (⟨name, span, args⟩ :: calls)

/-- `primary ('|' identifier (':' primary (',' primary)*)?)*` -/
inductive DerivesFiltered : List Token.Lexeme → Filtered → Prop
  | filtered {ls ms : List Token.Lexeme} {base : Primary} {calls : List FilterCall}
      (hbase : DerivesPrimary ls base) (hcalls : DerivesCalls ms calls) : DerivesFiltered (ls ++ ms) ⟨base, calls⟩

/-- `filtered (comparison filtered)?` -/
inductive DerivesCondition : List Token.Lexeme → Condition → Prop
  | holds {ls : List Token.Lexeme} {e : Filtered} (h : DerivesFiltered ls e) : DerivesCondition ls (.holds e)
  | compares {ls ms : List Token.Lexeme} {op : CompareOp} {left right : Filtered}
      (hleft : DerivesFiltered ls left) (hright : DerivesFiltered ms right) :
      DerivesCondition (ls ++ .comparison op :: ms) (.compares op left right)

/-- The tokens in front of `rest` derive `a`. -/
def Took {α : Type} (derives : List Token.Lexeme → α → Prop) (ts : List Token) (a : α) (rest : List Token) : Prop :=
  ∃ used, ts = used ++ rest ∧ derives (used.map (·.lexeme)) a

theorem index?_finite_eq_some_iff {units : Int} {storable : Number.Storable units.natAbs} {place : Nat} :
    (Number.finite units storable).index? = some place ↔
      ∃ n : Nat, units = n * Number.unitsPerOne ∧ place = min n (Nat.pow 2 64 - 1) := by
  have hpos := Number.unitsPerOne_pos
  rw [Number.index?]
  generalize Number.unitsPerOne = one at hpos
  constructor
  · intro h
    split at h
    · rename_i hwhole
      simp only [Bool.and_eq_true, decide_eq_true_eq, beq_iff_eq] at hwhole
      obtain ⟨hnonneg, hmod⟩ := hwhole
      have hunits : units.natAbs / one * one = units.natAbs :=
        Nat.div_mul_cancel (Nat.dvd_of_mod_eq_zero hmod)
      refine ⟨units.natAbs / one, ?_, (Option.some.inj h).symm⟩
      rw [← Int.natCast_mul, hunits, Int.natAbs_of_nonneg hnonneg]
    · cases h
  · rintro ⟨n, rfl, rfl⟩
    have habs : ((n : Int) * one).natAbs = n * one := by rw [← Int.natCast_mul, Int.natAbs_natCast]
    have hnonneg : (0 : Int) ≤ n * one := Int.mul_nonneg (Int.natCast_nonneg n) (Int.natCast_nonneg one)
    rw [habs, Nat.mul_mod_left, Nat.mul_div_cancel n hpos]
    simp [hnonneg]

theorem subscript?_eq_some_iff {l : Token.Lexeme} {segment : Segment} :
    subscript? l = some segment ↔ DerivesSubscript l segment := by
  constructor
  · intro h
    cases l with
    | string name =>
      cases h
      exact .name
    | number number =>
      obtain ⟨place, hplace, rfl⟩ := Option.map_eq_some_iff.mp h
      cases number with
      | finite units storable =>
        obtain ⟨n, hunits, rfl⟩ := index?_finite_eq_some_iff.mp hplace
        exact .place hunits
      | infinite | nan => cases hplace
    | _ => cases h
  · intro h
    cases h with
    | name => rfl
    | place hunits => exact Option.map_eq_some_iff.mpr ⟨_, index?_finite_eq_some_iff.mpr ⟨_, hunits, rfl⟩, rfl⟩

theorem Outcome.map_eq_ok_iff {α β : Type} {f : α → β} {o : Outcome α} {b : β} {rest : List Token} :
    o.map f = (.ok b, rest) ↔ ∃ a, o = (.ok a, rest) ∧ f a = b := by
  obtain ⟨r, after⟩ := o
  cases r with
  | error fault => simp [Outcome.map, Except.map]
  | ok a => simp [Outcome.map, Except.map, and_comm]

theorem took_of_segments {span whole : Span} {ts rest : List Token} {more : List Segment}
    (h : segments span ts = (.ok (more, whole), rest)) : Took DerivesSegments ts more rest := by
  fun_induction segments span ts generalizing more with
  | case1 span s₁ name s₂ ts ih =>
    obtain ⟨⟨tail, last⟩, htail, heq⟩ := Outcome.map_eq_ok_iff.mp h
    cases heq
    obtain ⟨used, rfl, hused⟩ := ih htail
    exact ⟨⟨.dot, s₁⟩ :: ⟨.identifier name, s₂⟩ :: used, rfl, .field hused⟩
  | case3 span s₁ t s₂ ts segment hsegment ih =>
    obtain ⟨⟨tail, last⟩, htail, heq⟩ := Outcome.map_eq_ok_iff.mp h
    cases heq
    obtain ⟨used, rfl, hused⟩ := ih htail
    exact ⟨⟨.leftBracket, s₁⟩ :: t :: ⟨.rightBracket, s₂⟩ :: used, rfl,
      .subscript (subscript?_eq_some_iff.mp hsegment) hused⟩
  | case8 =>
    cases h
    exact ⟨[], rfl, .done⟩
  | _ => cases h

theorem took_of_primary {ts rest : List Token} {e : Primary} (h : primary ts = (.ok e, rest)) :
    Took DerivesPrimary ts e rest := by
  unfold primary at h
  split at h
  case h_1 n s ts =>
    cases h
    exact ⟨[⟨.number n, s⟩], rfl, .number⟩
  case h_2 text s ts =>
    cases h
    exact ⟨[⟨.string text, s⟩], rfl, .string⟩
  case h_3 b s ts =>
    cases h
    exact ⟨[⟨.boolean b, s⟩], rfl, .boolean⟩
  case h_4 s ts =>
    cases h
    exact ⟨[⟨.nil, s⟩], rfl, .nil⟩
  case h_5 name s ts =>
    obtain ⟨⟨more, whole⟩, hmore, rfl⟩ := Outcome.map_eq_ok_iff.mp h
    obtain ⟨used, rfl, hused⟩ := took_of_segments hmore
    exact ⟨⟨.identifier name, s⟩ :: used, rfl, .path hused⟩
  case h_6 => cases h

theorem took_of_arguments {ts rest : List Token} {args : List Primary} (h : arguments ts = (.ok args, rest)) :
    Took DerivesArguments ts args rest := by
  fun_induction arguments ts generalizing args with
  | case1 ts fault after hprimary => cases h
  | case2 ts arg s after hprimary ih =>
    obtain ⟨more, hmore, rfl⟩ := Outcome.map_eq_ok_iff.mp h
    obtain ⟨first, rfl, hfirst⟩ := took_of_primary hprimary
    obtain ⟨others, rfl, hothers⟩ := ih hmore
    refine ⟨first ++ ⟨.comma, s⟩ :: others, by simp, ?_⟩
    rw [List.map_append, List.map_cons]
    exact .more hfirst hothers
  | case3 ts arg after hcomma hprimary =>
    cases h
    obtain ⟨first, rfl, hfirst⟩ := took_of_primary hprimary
    exact ⟨first, rfl, .last hfirst⟩

theorem took_of_callArguments {ts rest : List Token} {args : List Primary}
    (h : callArguments ts = (.ok args, rest)) : Took DerivesCallArguments ts args rest := by
  unfold callArguments at h
  split at h
  case h_1 s ts =>
    obtain ⟨used, rfl, hused⟩ := took_of_arguments h
    exact ⟨⟨.colon, s⟩ :: used, rfl, .some hused⟩
  case h_2 =>
    cases h
    exact ⟨[], rfl, .none⟩

theorem took_of_calls {ts rest : List Token} {cs : List FilterCall} (h : calls ts = (.ok cs, rest)) :
    Took DerivesCalls ts cs rest := by
  fun_induction calls ts generalizing cs with
  | case1 s₁ name s₂ ts fault after hargs => cases h
  | case2 s₁ name s₂ ts args after hargs ih =>
    obtain ⟨more, hmore, rfl⟩ := Outcome.map_eq_ok_iff.mp h
    obtain ⟨first, rfl, hfirst⟩ := took_of_callArguments hargs
    obtain ⟨others, rfl, hothers⟩ := ih hmore
    refine ⟨⟨.pipe, s₁⟩ :: ⟨.identifier name, s₂⟩ :: (first ++ others), by simp, ?_⟩
    rw [List.map_cons, List.map_cons, List.map_append]
    exact .call hfirst hothers
  | case3 => cases h
  | case4 =>
    cases h
    exact ⟨[], rfl, .done⟩

theorem took_of_filtered {ts rest : List Token} {e : Filtered} (h : filtered ts = (.ok e, rest)) :
    Took DerivesFiltered ts e rest := by
  unfold filtered at h
  split at h
  case h_1 => cases h
  case h_2 base after hbase =>
    obtain ⟨cs, hcs, rfl⟩ := Outcome.map_eq_ok_iff.mp h
    obtain ⟨first, rfl, hfirst⟩ := took_of_primary hbase
    obtain ⟨others, rfl, hothers⟩ := took_of_calls hcs
    refine ⟨first ++ others, by simp, ?_⟩
    rw [List.map_append]
    exact .filtered hfirst hothers

theorem took_of_condition {ts rest : List Token} {e : Condition} (h : condition ts = (.ok e, rest)) :
    Took DerivesCondition ts e rest := by
  unfold condition at h
  split at h
  case h_1 => cases h
  case h_2 left op s after hleft =>
    split at h
    case h_1 => cases h
    case h_2 right last hright =>
      split at h
      · cases h
      · cases h
        obtain ⟨first, rfl, hfirst⟩ := took_of_filtered hleft
        obtain ⟨second, rfl, hsecond⟩ := took_of_filtered hright
        refine ⟨first ++ ⟨.comparison op, s⟩ :: second, by simp, ?_⟩
        rw [List.map_append, List.map_cons]
        exact .compares hfirst hsecond
  case h_3 left after hop hleft =>
    cases h
    obtain ⟨used, rfl, hused⟩ := took_of_filtered hleft
    exact ⟨used, rfl, .holds hused⟩

end Grammar

end TextTemplate
