import TextTemplate.Proofs.Expr.Extents
import TextTemplate.Proofs.Expr.Spacing

namespace TextTemplate

namespace Token

open Grammar

theorem inOrder_of_lex {content : List Char} {ts : Tokens} (h : lex content = .ok ts) : InOrder ts.toList := by
  have hrun : Run 0 content ts.toList ts.stop [] := Run.of_lexFrom_eq_ok h
  exact ⟨fun t ht => Nat.le_of_lt (hrun.span_of_mem ht).1, hrun.pairwise_spans⟩

namespace Run

variable {offset stop : Nat} {cs ahead : List Char}

/-- A run of tokens in two parts; the first of them ends right behind its last token. -/
theorem exists_append {tokens more : List Token} (h : Run offset cs (tokens ++ more) stop ahead) :
    ∃ mid behind, Run offset cs tokens mid behind ∧ Run mid behind more stop ahead ∧
      ∀ t ∈ tokens.getLast?, t.span.stop = mid := by
  generalize hwhole : tokens ++ more = whole at h
  induction h generalizing tokens with
  | @done offset cs =>
    obtain ⟨rfl, rfl⟩ := List.append_eq_nil_iff.mp hwhole
    exact ⟨offset, cs, .done, .done, by simp⟩
  | @blank offset stop c rest ahead whole hc h ih =>
    cases tokens with
    | nil =>
      rw [List.nil_append] at hwhole
      rw [hwhole]
      exact ⟨offset, c :: rest, .done, .blank hc h, by simp⟩
    | cons t tokens =>
      obtain ⟨mid, behind, hfirst, hmore, hlast⟩ := ih hwhole
      exact ⟨mid, behind, .blank hc hfirst, hmore, hlast⟩
  | @token offset stop c rest taken after ahead l whole hc hcut hcs h ih =>
    cases tokens with
    | nil =>
      rw [List.nil_append] at hwhole
      rw [hwhole]
      exact ⟨offset, c :: rest, .done, .token hc hcut hcs h, by simp⟩
    | cons t tokens =>
      obtain ⟨rfl, htail⟩ := List.cons.inj hwhole
      cases tokens with
      | nil =>
        change more = whole at htail
        rw [htail]
        refine ⟨_, after, .token hc hcut hcs .done, h, ?_⟩
        intro t ht
        cases ht
        rfl
      | cons u tokens =>
        obtain ⟨mid, behind, hfirst, hmore, hlast⟩ := ih htail
        exact ⟨mid, behind, .token hc hcut hcs hfirst, hmore, hlast⟩

/-- White space in front of the first token may be passed before. -/
theorem exists_first {t : Token} {tokens : List Token} (h : Run offset cs (t :: tokens) stop ahead) :
    ∃ gap behind, cs = gap ++ behind ∧ t.span.start = offset + byteSize gap ∧
      Run t.span.start behind (t :: tokens) stop ahead := by
  generalize hwhole : t :: tokens = whole at h
  induction h with
  | done => cases hwhole
  | @blank offset stop c rest ahead whole hc h ih =>
    obtain ⟨gap, behind, rfl, hstart, hrun⟩ := ih hwhole
    exact ⟨c :: gap, behind, rfl, by rw [hstart, byteSize, Nat.add_assoc], hrun⟩
  | token hc hcut hcs h ih =>
    obtain ⟨rfl, -⟩ := List.cons.inj hwhole
    exact ⟨[], _, rfl, rfl, .token hc hcut hcs h⟩

/-- Counted from a later byte, a run reads the same tokens so much further on. -/
theorem exists_forward {start bytes : Nat} {tokens : List Token} (h : Run start cs tokens stop ahead)
    (hstart : start = offset + bytes) :
    ∃ us stop', Run offset cs us stop' ahead ∧ us.map (relocate (Span.forward bytes)) = tokens := by
  induction h generalizing offset with
  | done => exact ⟨[], offset, .done, rfl⟩
  | @blank start stop c rest ahead tokens hc h ih =>
    have hnext : start + c.utf8Size = offset + c.utf8Size + bytes := by omega
    obtain ⟨us, stop', hrun, hus⟩ := ih hnext
    exact ⟨us, stop', .blank hc hrun, hus⟩
  | @token start stop c rest taken behind ahead l tokens hc hcut hcs h ih =>
    have hnext : start + byteSize taken = offset + byteSize taken + bytes := by omega
    obtain ⟨us, stop', hrun, hus⟩ := ih hnext
    refine ⟨_, stop', .token hc hcut hcs hrun, ?_⟩
    rw [List.map_cons, hus]
    simp only [relocate, Span.forward, List.cons.injEq, Token.mk.injEq, Span.mk.injEq, true_and, and_true]
    omega

end Run

/-- What a span delimits, alone, holds the tokens that the span covers. -/
theorem exists_lex_of_covers {content : List Char} {ts : Tokens} {own : List Token} {s : Span}
    (h : lex content = .ok ts) (hown : own <:+: ts.toList) (hs : s.Covers own) :
    ∃ text us, s.Cuts content text ∧ lex text = .ok us ∧ us.toList.map (relocate (Span.forward s.start)) = own := by
  obtain ⟨first, hfirst, last, hlast, rfl⟩ := hs
  obtain ⟨tail, htail⟩ := List.head?_eq_some_iff.mp hfirst
  obtain ⟨front, back, hsplit⟩ := hown
  have hrun : Run 0 content (front ++ (own ++ back)) ts.stop [] := by
    rw [← List.append_assoc, hsplit]
    exact Run.of_lexFrom_eq_ok h
  -- The run over the whole content is cut in front of these tokens and behind them.
  obtain ⟨mid, behind, hfront, hrest, -⟩ := hrun.exists_append
  obtain ⟨stop, ahead, hmiddle, -, hstop⟩ := hrest.exists_append
  have hstop : last.span.stop = stop := hstop last hlast
  obtain ⟨passed, hcontent, hmid⟩ := hfront.exists_passed
  rw [htail] at hmiddle
  obtain ⟨gap, more, hbehind, hstart, hexact⟩ := hmiddle.exists_first
  obtain ⟨text, hmore, hlength⟩ := hexact.exists_passed
  rw [hmore] at hexact
  have halone := hexact.of_apart (apart_nil ahead)
  rw [List.append_nil, ← htail] at halone
  obtain ⟨us, stop', hus, hforward⟩ := halone.exists_forward (Nat.zero_add _).symm
  refine ⟨text, ⟨us, stop'⟩, ⟨passed ++ gap, ahead, ?_, ?_, ?_⟩, hus.lex_eq, hforward⟩
  · rw [hcontent, hbehind, hmore]
    simp only [List.append_assoc]
  · rw [byteSize_append, hstart, hmid, Nat.zero_add]
  · rw [hstop, hlength, hstart, hmid, byteSize_append, byteSize_append, Nat.zero_add]

end Token

open Grammar Token

/-- A primary as a condition of its own. -/
def Primary.alone (p : Primary) : Condition :=
  .holds ⟨p, []⟩

/-- The expression, its base and the arguments of its filters. -/
def Filtered.parts (e : Filtered) : List Condition :=
  .holds e :: (e.base :: e.calls.flatMap FilterCall.args).map Primary.alone

/-- The expression itself and every expression inside. -/
def Condition.parts : Condition → List Condition
  | .holds e => e.parts
  | .compares op left right => .compares op left right :: (left.parts ++ right.parts)

/-- A call reaches from its name to its last argument, and its arguments follow one another in between. -/
structure FilterCall.Laid (call : FilterCall) (ts : List Token) : Prop where
  named : ⟨.identifier call.name, call.nameSpan⟩ ∈ ts
  reach : call.span =
    ⟨call.nameSpan.start, ((call.args.getLast?.map Primary.span).getD call.nameSpan).stop⟩
  nests : call.span.Nests (call.nameSpan :: call.args.map Primary.span)

/-- The children of an expression lie within it, one behind the other. -/
def Condition.Laid (ts : List Token) : Condition → Prop
  | .holds e => e.span.Nests (e.base.span :: e.calls.map FilterCall.span) ∧ ∀ call ∈ e.calls, call.Laid ts
  | .compares op left right => (compares op left right).span.Nests [left.span, right.span]

/-- An expression that the tokens of a content hold, and the piece of the content that its span delimits. What that
piece alone is read as lies nearer to the beginning by the start of the span, and is the same else. -/
structure Condition.Delimited (content : List Char) (ts : List Token) (c : Condition) : Prop where
  extent : ∃ used, used <:+: ts ∧ Grammar.condition used = (.ok c, []) ∧ c.span.Covers used
  laid : c.Laid ts
  alone : ∃ text, c.span.Cuts content text ∧
    Condition.ofContent text = .ok (c.relocate (Span.back c.span.start)) ∧
    (c.relocate (Span.back c.span.start)).relocate (Span.forward c.span.start) = c

theorem Primary.ReadFrom.alone {p : Primary} {used : List Token} (h : p.ReadFrom used) :
    Condition.ReadFrom p.alone used := by
  refine condition_readFrom_of_filtered ⟨⟨used, [], by rw [List.append_nil], h, .nil⟩, ?_, h.covers⟩
  intro rest hrest
  have hpath : StopsAt pathMarks rest := hrest.mono (by simp [callMarks, argumentMarks, pathMarks])
  have hpipe : StopsAt [.pipe] rest := hrest.mono (by simp [callMarks])
  rw [filtered, h.reads rest hpath]
  simp only [calls_of_stopsAt hpipe]
  rfl

/-- Every part of an expression is read from tokens of its own. -/
theorem Filtered.ReadFrom.exists_of_mem_parts {e : Filtered} {used : List Token} (h : e.ReadFrom used)
    {part : Condition} (hpart : part ∈ e.parts) : ∃ own, own <:+: used ∧ part.ReadFrom own := by
  obtain ⟨first, others, rfl, hbase, hcalls⟩ := h.parts
  rcases List.mem_cons.mp hpart with rfl | hinside
  · exact ⟨_, List.infix_rfl, condition_readFrom_of_filtered h⟩
  · obtain ⟨p, hp, rfl⟩ := List.mem_map.mp hinside
    rcases List.mem_cons.mp hp with rfl | harg
    · exact ⟨first, (List.prefix_append _ _).isInfix, hbase.alone⟩
    · obtain ⟨call, hcall, hp⟩ := List.mem_flatMap.mp harg
      obtain ⟨own, hown, hread⟩ := hcalls.exists_of_mem hcall
      obtain ⟨behind, rfl, hargs⟩ := hread.parts
      obtain ⟨own', hown', hread'⟩ := hargs.exists_of_mem hp
      have hwithin : own' <:+: others := (hown'.trans (List.suffix_cons _ _).isInfix).trans hown
      exact ⟨own', hwithin.trans (List.suffix_append _ _).isInfix, hread'.alone⟩

theorem Condition.ReadFrom.exists_of_mem_parts {c part : Condition} {used : List Token} (h : c.ReadFrom used)
    (hpart : part ∈ c.parts) : ∃ own, own <:+: used ∧ part.ReadFrom own := by
  cases c with
  | holds e => exact Filtered.ReadFrom.exists_of_mem_parts h.parts hpart
  | compares op left right =>
    rcases List.mem_cons.mp hpart with rfl | hoperand
    · exact ⟨used, List.infix_rfl, h⟩
    · obtain ⟨first, s, second, rfl, hleft, hright⟩ := h.parts
      rcases List.mem_append.mp hoperand with hfirst | hsecond
      · obtain ⟨own, hown, hread⟩ := hleft.exists_of_mem_parts hfirst
        exact ⟨own, hown.trans (List.prefix_append _ _).isInfix, hread⟩
      · obtain ⟨own, hown, hread⟩ := hright.exists_of_mem_parts hsecond
        have hsuffix : second <:+ first ++ ⟨.comparison op, s⟩ :: second :=
          (List.suffix_cons _ _).trans (List.suffix_append _ _)
        exact ⟨own, hown.trans hsuffix.isInfix, hread⟩

theorem FilterCall.ReadFrom.laid {call : FilterCall} {used ts : List Token} (h : call.ReadFrom used)
    (hin : InOrder used) (hts : used ⊆ ts) : call.Laid ts := by
  obtain ⟨others, rfl, hargs⟩ := h.parts
  have hname := Span.covers_singleton ⟨.identifier call.name, call.nameSpan⟩
  refine ⟨hts List.mem_cons_self, ?_, ?_⟩
  · unfold FilterCall.span
    cases hlast : call.args.getLast? with
    | none => rfl
    | some last =>
      obtain ⟨gap, own, rfl, hown⟩ := hargs.exists_of_getLast hlast
      exact hname.join_eq hown.covers hin
  · have hspans : Strung Span.Covers (call.args.map Primary.span) others := hargs.map fun p own hp => hp.covers
    exact Strung.nests (.cons [] hname hspans) h.covers hin

theorem Filtered.ReadFrom.laid {e : Filtered} {used ts : List Token} (h : e.ReadFrom used) (hin : InOrder used)
    (hts : used ⊆ ts) : Condition.Laid ts (.holds e) := by
  obtain ⟨first, others, rfl, hbase, hcalls⟩ := h.parts
  constructor
  · have hspans : Strung Span.Covers (e.calls.map FilterCall.span) others :=
      hcalls.map fun call own hcall => hcall.covers
    exact Strung.nests (.cons [] hbase.covers hspans) h.covers hin
  · intro call hcall
    obtain ⟨own, hown, hread⟩ := hcalls.exists_of_mem hcall
    have hwithin : own <:+: first ++ others := hown.trans (List.suffix_append _ _).isInfix
    exact hread.laid (hin.sublist hwithin.sublist) (fun t ht => hts (hwithin.subset ht))

theorem Condition.ReadFrom.laid {c : Condition} {used ts : List Token} (h : c.ReadFrom used) (hin : InOrder used)
    (hts : used ⊆ ts) : c.Laid ts := by
  cases c with
  | holds e => exact Filtered.ReadFrom.laid h.parts hin hts
  | compares op left right =>
    obtain ⟨first, s, second, rfl, hleft, hright⟩ := h.parts
    have hstrung : Strung Span.Covers [left.span, right.span]
        ([] ++ (first ++ ([⟨.comparison op, s⟩] ++ (second ++ [])))) :=
      .cons [] hleft.covers (.cons [_] hright.covers .nil)
    rw [List.append_nil] at hstrung
    exact hstrung.nests h.covers hin

/-- What reads tokens as an expression reads the piece of the content where they stand as that expression. -/
theorem Condition.ReadFrom.alone {c : Condition} {own : List Token} {content : List Char} {ts : Tokens}
    (h : c.ReadFrom own) (hlex : lex content = .ok ts) (hown : own <:+: ts.toList) :
    ∃ text, c.span.Cuts content text ∧ Condition.ofContent text = .ok (c.relocate (Span.back c.span.start)) ∧
      (c.relocate (Span.back c.span.start)).relocate (Span.forward c.span.start) = c := by
  obtain ⟨text, us, hcuts, htext, hforward⟩ := exists_lex_of_covers hlex hown h.covers
  have hread := h.reads
  rw [← hforward, condition_relocate (Span.keepsJoin_forward _)] at hread
  rcases hresult : condition us.toList with ⟨fault | c', rest⟩
  · rw [hresult] at hread
    cases hread
  · rw [hresult] at hread
    obtain ⟨hc, hrest⟩ := Prod.mk.inj hread
    have hrest : rest.map (Token.relocate (Span.forward c.span.start)) = [] := hrest
    have hc : c'.relocate (Span.forward c.span.start) = c := Except.ok.inj hc
    have hback : c.relocate (Span.back c.span.start) = c' := by
      have hcancel := c'.relocate_cancel (Span.back_forward c.span.start)
      rwa [hc] at hcancel
    rw [List.map_eq_nil_iff.mp hrest] at hresult
    rw [hback]
    exact ⟨text, hcuts, (Cursor.ofContent_parseToEnd_eq_ok_iff suffix_condition).mpr ⟨us, htext, hresult⟩, hc⟩

/-- Of a content that is one condition, every part is delimited by its span. -/
theorem Condition.delimited_of_mem_parts {content : List Char} {ts : Tokens} {c part : Condition}
    (hlex : lex content = .ok ts) (h : condition ts.toList = (.ok c, [])) (hpart : part ∈ c.parts) :
    part.Delimited content ts.toList := by
  have hin := inOrder_of_lex hlex
  obtain ⟨own, hown, hread⟩ := (condition_readFrom h hin).exists_of_mem_parts hpart
  exact ⟨⟨own, hown, hread.reads, hread.covers⟩, hread.laid (hin.sublist hown.sublist) hown.subset,
    hread.alone hlex hown⟩

/-- Every expression in a content reaches from its first token to its last, with its children apart and in order
within it, and its piece of the content is read alone as the same expression. -/
theorem Condition.parts_are_delimited (content : List Char) :
    (∀ c, Condition.ofContent content = .ok c → ∃ ts, lex content = .ok ts ∧ c.span.Covers ts.toList ∧
      ∀ part ∈ c.parts, part.Delimited content ts.toList) ∧
    ∀ e, Filtered.ofContent content = .ok e → ∃ ts, lex content = .ok ts ∧ e.span.Covers ts.toList ∧
      ∀ part ∈ e.parts, part.Delimited content ts.toList := by
  constructor
  · intro c h
    obtain ⟨ts, hlex, hread⟩ := (Cursor.ofContent_parseToEnd_eq_ok_iff suffix_condition).mp h
    exact ⟨ts, hlex, (condition_readFrom hread (inOrder_of_lex hlex)).covers,
      fun part => delimited_of_mem_parts hlex hread⟩
  · intro e h
    obtain ⟨ts, hlex, hread⟩ := (Cursor.ofContent_parseToEnd_eq_ok_iff suffix_filtered).mp h
    have hcondition := condition_of_filtered hread
    exact ⟨ts, hlex, (condition_readFrom hcondition (inOrder_of_lex hlex)).covers,
      fun part => delimited_of_mem_parts hlex hcondition⟩

/-- The span of a filter ends with its last argument and that of a path with its bracket. -/
theorem Condition.parts_are_delimited_compares :
    (∃ c ts, Condition.ofContent "a.b | f: 1, 'x' == c[0]".toList = .ok c ∧
      c.parts.map Condition.span = [⟨0, 23⟩, ⟨0, 15⟩, ⟨0, 3⟩, ⟨9, 10⟩, ⟨12, 15⟩, ⟨19, 23⟩, ⟨19, 23⟩] ∧
      ∀ part ∈ c.parts, part.Delimited "a.b | f: 1, 'x' == c[0]".toList ts) ∧
    ∃ e ts, Filtered.ofContent " c[0] | f".toList = .ok e ∧ e.parts.map Condition.span = [⟨1, 9⟩, ⟨1, 5⟩] ∧
      ∀ part ∈ e.parts, part.Delimited " c[0] | f".toList ts := by
  constructor
  · have hspans : (Condition.ofContent "a.b | f: 1, 'x' == c[0]".toList).map (fun c => c.parts.map Condition.span) =
        .ok [⟨0, 23⟩, ⟨0, 15⟩, ⟨0, 3⟩, ⟨9, 10⟩, ⟨12, 15⟩, ⟨19, 23⟩, ⟨19, 23⟩] := by decide +kernel
    obtain ⟨c, hc, hparts⟩ := Outcome.map_eq_ok_iff.mp hspans
    obtain ⟨ts, -, -, hdelimited⟩ := (parts_are_delimited "a.b | f: 1, 'x' == c[0]".toList).1 c hc
    exact ⟨c, ts.toList, hc, hparts, hdelimited⟩
  · have hspans : (Filtered.ofContent " c[0] | f".toList).map (fun e => e.parts.map Condition.span) =
        .ok [⟨1, 9⟩, ⟨1, 5⟩] := by decide +kernel
    obtain ⟨e, he, hparts⟩ := Outcome.map_eq_ok_iff.mp hspans
    obtain ⟨ts, -, -, hdelimited⟩ := (parts_are_delimited " c[0] | f".toList).2 e he
    exact ⟨e, ts.toList, he, hparts, hdelimited⟩

end TextTemplate
