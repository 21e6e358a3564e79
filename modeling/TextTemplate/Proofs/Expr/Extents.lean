import TextTemplate.Proofs.Expr.Relocation

namespace TextTemplate

/-- No token ends before it begins, and none begins before the one in front of it has ended. -/
structure Token.InOrder (ts : List Token) : Prop where
  upright : ∀ t ∈ ts, t.span.start ≤ t.span.stop
  apart : ts.Pairwise fun t u => t.span.stop ≤ u.span.start

namespace Token

variable {ts us : List Token}

theorem InOrder.sublist (h : InOrder ts) (hsub : us.Sublist ts) : InOrder us :=
  ⟨fun t ht => h.upright t (hsub.subset ht), h.apart.sublist hsub⟩

theorem InOrder.start_le_of_head (h : InOrder ts) {first t : Token} (hfirst : first ∈ ts.head?) (ht : t ∈ ts) :
    first.span.start ≤ t.span.start := by
  obtain ⟨tail, rfl⟩ := List.head?_eq_some_iff.mp hfirst
  rcases List.mem_cons.mp ht with rfl | hlater
  · exact Nat.le_refl _
  · have hupright := h.upright first List.mem_cons_self
    have hapart := List.rel_of_pairwise_cons h.apart hlater
    omega

theorem InOrder.stop_le_of_getLast (h : InOrder ts) {last t : Token} (hlast : last ∈ ts.getLast?) (ht : t ∈ ts) :
    t.span.stop ≤ last.span.stop := by
  obtain ⟨front, rfl⟩ := List.getLast?_eq_some_iff.mp hlast
  rcases List.mem_append.mp ht with hearlier | hself
  · have hupright := h.upright last (by simp)
    have hapart := (List.pairwise_append.mp h.apart).2.2 t hearlier last (by simp)
    omega
  · rw [List.mem_singleton.mp hself]

end Token

namespace Span

open Token

/-- From the first of the tokens to the last. -/
def Covers (s : Span) (used : List Token) : Prop :=
  ∃ first ∈ used.head?, ∃ last ∈ used.getLast?, s = ⟨first.span.start, last.span.stop⟩

/-- The pieces lie within the whole, one behind the other. -/
structure Nests (whole : Span) (pieces : List Span) : Prop where
  inside : ∀ s ∈ pieces, whole.start ≤ s.start ∧ s.stop ≤ whole.stop
  apart : pieces.Pairwise fun s s' => s.stop ≤ s'.start

variable {s s' : Span} {used used' own : List Token}

theorem covers_singleton (t : Token) : t.span.Covers [t] :=
  ⟨t, rfl, t, rfl, rfl⟩

theorem Covers.bounds_of_mem (h : s.Covers used) (hin : InOrder used) {t : Token} (ht : t ∈ used) :
    s.start ≤ t.span.start ∧ t.span.stop ≤ s.stop := by
  obtain ⟨first, hfirst, last, hlast, rfl⟩ := h
  exact ⟨hin.start_le_of_head hfirst ht, hin.stop_le_of_getLast hlast ht⟩

theorem Covers.bounds_of_subset (h : s.Covers used) (hin : InOrder used) (hown : s'.Covers own) (hsub : own ⊆ used) :
    s.start ≤ s'.start ∧ s'.stop ≤ s.stop := by
  obtain ⟨first, hfirst, last, hlast, rfl⟩ := hown
  have hstart := (h.bounds_of_mem hin (hsub (List.mem_of_mem_head? hfirst))).1
  have hstop := (h.bounds_of_mem hin (hsub (List.mem_of_getLast? hlast))).2
  exact ⟨hstart, hstop⟩

theorem Covers.append (h : s.Covers used) (h' : s'.Covers used') (gap : List Token) :
    Covers ⟨s.start, s'.stop⟩ (used ++ (gap ++ used')) := by
  obtain ⟨first, hfirst, _, _, rfl⟩ := h
  obtain ⟨_, _, last, hlast, rfl⟩ := h'
  refine ⟨first, ?_, last, ?_, rfl⟩
  · obtain ⟨tail, rfl⟩ := List.head?_eq_some_iff.mp hfirst
    rfl
  · obtain ⟨front, rfl⟩ := List.getLast?_eq_some_iff.mp hlast
    rw [← List.append_assoc, ← List.append_assoc]
    exact List.getLast?_concat

theorem Covers.join_eq (h : s.Covers used) (h' : s'.Covers used') {gap : List Token}
    (hin : InOrder (used ++ (gap ++ used'))) : s.join s' = ⟨s.start, s'.stop⟩ := by
  have hwhole := h.append h' gap
  have hleft := hwhole.bounds_of_subset hin h (List.subset_append_left _ _)
  have hright := hwhole.bounds_of_subset hin h'
    (List.Subset.trans (List.subset_append_right gap used') (List.subset_append_right _ _))
  simp only at hleft hright
  simp only [Span.join, Span.mk.injEq]
  omega

/-- A join reaches over the tokens in between. -/
theorem Covers.join (h : s.Covers used) (h' : s'.Covers used') {gap : List Token}
    (hin : InOrder (used ++ (gap ++ used'))) : (s.join s').Covers (used ++ (gap ++ used')) := by
  rw [h.join_eq h' hin]
  exact h.append h' gap

end Span

namespace Grammar

open Token

/-- Items read from tokens one behind the other. Tokens in front of an item may belong to none, but behind the last
item nothing is left. -/
inductive Strung {α : Type} (readFrom : α → List Token → Prop) : List α → List Token → Prop
  | nil : Strung readFrom [] []
  | cons {a : α} {as : List α} {own rest : List Token} (gap : List Token) (ha : readFrom a own)
      (h : Strung readFrom as rest) : Strung readFrom (a :: as) (gap ++ (own ++ rest))

namespace Strung

variable {α β : Type} {readFrom : α → List Token → Prop} {readFrom' : β → List Token → Prop} {as : List α}
  {used : List Token}

theorem map {f : α → β} (hf : ∀ a own, readFrom a own → readFrom' (f a) own) (h : Strung readFrom as used) :
    Strung readFrom' (as.map f) used := by
  induction h with
  | nil => exact .nil
  | cons gap ha h ih => exact .cons gap (hf _ _ ha) ih

theorem exists_of_mem (h : Strung readFrom as used) {a : α} (ha : a ∈ as) :
    ∃ own, own <:+: used ∧ readFrom a own := by
  induction h with
  | nil => cases ha
  | @cons b as own rest gap hb h ih =>
    rcases List.mem_cons.mp ha with rfl | hlater
    · exact ⟨own, ⟨gap, rest, List.append_assoc _ _ _⟩, hb⟩
    · obtain ⟨own', hlies, ha'⟩ := ih hlater
      have hsuffix : rest <:+ gap ++ (own ++ rest) := ⟨gap ++ own, List.append_assoc _ _ _⟩
      exact ⟨own', hlies.trans hsuffix.isInfix, ha'⟩

theorem exists_of_getLast (h : Strung readFrom as used) {last : α} (hlast : last ∈ as.getLast?) :
    ∃ gap own, used = gap ++ own ∧ readFrom last own := by
  induction h with
  | nil => cases hlast
  | @cons b as own rest gap hb h ih =>
    cases as with
    | nil =>
      cases hlast
      cases h
      exact ⟨gap, own, by rw [List.append_nil], hb⟩
    | cons a as =>
      rw [List.getLast?_cons_cons] at hlast
      obtain ⟨gap', own', rfl, hread⟩ := ih hlast
      exact ⟨gap ++ (own ++ gap'), own', by simp only [List.append_assoc], hread⟩

/-- Spans strung along tokens are nested in the span of all of these. -/
theorem nests {pieces : List Span} {whole : Span} (h : Strung Span.Covers pieces used) (hwhole : whole.Covers used)
    (hin : InOrder used) : whole.Nests pieces := by
  constructor
  · intro s hs
    obtain ⟨own, hlies, hown⟩ := h.exists_of_mem hs
    exact hwhole.bounds_of_subset hin hown hlies.subset
  · clear hwhole
    induction h with
    | nil => exact .nil
    | @cons s pieces own rest gap hs h ih =>
      have htail : InOrder (own ++ rest) := hin.sublist (List.sublist_append_right _ _)
      refine List.pairwise_cons.mpr ⟨?_, ih (htail.sublist (List.sublist_append_right _ _))⟩
      intro s' hs'
      obtain ⟨own', hlies, hown'⟩ := h.exists_of_mem hs'
      obtain ⟨_, _, last, hlast, rfl⟩ := hs
      obtain ⟨first', hfirst', _, _, rfl⟩ := hown'
      exact (List.pairwise_append.mp htail.apart).2.2 last (List.mem_of_getLast? hlast) first'
        (hlies.subset (List.mem_of_mem_head? hfirst'))

end Strung

end Grammar

open Grammar Token

/-- A primary is read from these tokens, whatever does not go on with a path behind them. -/
structure Primary.ReadFrom (p : Primary) (used : List Token) : Prop where
  reads : ∀ rest, StopsAt pathMarks rest → primary (used ++ rest) = (.ok p, rest)
  covers : p.span.Covers used

structure FilterCall.ReadFrom (call : FilterCall) (used : List Token) : Prop where
  parts : ∃ others, used = ⟨.identifier call.name, call.nameSpan⟩ :: others ∧ Strung Primary.ReadFrom call.args others
  covers : call.span.Covers used

structure Filtered.ReadFrom (e : Filtered) (used : List Token) : Prop where
  parts : ∃ first others, used = first ++ others ∧ e.base.ReadFrom first ∧ Strung FilterCall.ReadFrom e.calls others
  reads : ∀ rest, StopsAt callMarks rest → filtered (used ++ rest) = (.ok e, rest)
  covers : e.span.Covers used

/-- The operands of a condition are read from the tokens on both sides of the comparison. -/
def Condition.OperandsFrom (used : List Token) : Condition → Prop
  | .holds e => e.ReadFrom used
  | .compares op left right => ∃ first s second, used = first ++ ⟨.comparison op, s⟩ :: second ∧
      left.ReadFrom first ∧ right.ReadFrom second

structure Condition.ReadFrom (c : Condition) (used : List Token) : Prop where
  parts : c.OperandsFrom used
  reads : condition used = (.ok c, [])
  covers : c.span.Covers used

namespace Grammar

variable {ts rest : List Token}

theorem exists_segments_readFrom {span whole : Span} {more : List Segment} {before : List Token}
    (h : segments span ts = (.ok (more, whole), rest)) (hbefore : span.Covers before) (hin : InOrder (before ++ ts)) :
    ∃ used, ts = used ++ rest ∧ whole.Covers (before ++ used) ∧
      ∀ after, StopsAt pathMarks after → segments span (used ++ after) = (.ok (more, whole), after) := by
  fun_induction segments span ts generalizing more before with
  | case1 span s₁ name s₂ ts ih =>
    obtain ⟨⟨tail, last⟩, htail, heq⟩ := Outcome.map_eq_ok_iff.mp h
    cases heq
    have hin' : InOrder ((before ++ ([⟨.dot, s₁⟩] ++ [⟨.identifier name, s₂⟩])) ++ ts) := by
      rwa [List.append_assoc]
    have hspan := hbefore.join (Span.covers_singleton ⟨.identifier name, s₂⟩)
      (hin'.sublist (List.sublist_append_left _ _))
    obtain ⟨used, rfl, hcovers, hread⟩ := ih htail hspan hin'
    refine ⟨⟨.dot, s₁⟩ :: ⟨.identifier name, s₂⟩ :: used, rfl, ?_, ?_⟩
    · rwa [List.append_assoc] at hcovers
    · intro after hafter
      rw [List.cons_append, List.cons_append, segments_field, hread after hafter]
      rfl
  | case3 span s₁ t s₂ ts segment hsegment ih =>
    obtain ⟨⟨tail, last⟩, htail, heq⟩ := Outcome.map_eq_ok_iff.mp h
    cases heq
    have hin' : InOrder ((before ++ ([⟨.leftBracket, s₁⟩, t] ++ [⟨.rightBracket, s₂⟩])) ++ ts) := by
      rwa [List.append_assoc]
    have hspan := hbefore.join (Span.covers_singleton ⟨.rightBracket, s₂⟩) (hin'.sublist (List.sublist_append_left _ _))
    obtain ⟨used, rfl, hcovers, hread⟩ := ih htail hspan hin'
    refine ⟨⟨.leftBracket, s₁⟩ :: t :: ⟨.rightBracket, s₂⟩ :: used, rfl, ?_, ?_⟩
    · rwa [List.append_assoc] at hcovers
    · intro after hafter
      rw [List.cons_append, List.cons_append, List.cons_append, segments_subscript hsegment, hread after hafter]
      rfl
  | case8 =>
    cases h
    refine ⟨[], rfl, by rwa [List.append_nil], ?_⟩
    intro after hafter
    exact segments_of_stopsAt hafter
  | _ => cases h

theorem exists_primary_readFrom {p : Primary} (h : primary ts = (.ok p, rest)) (hin : InOrder ts) :
    ∃ used, ts = used ++ rest ∧ p.ReadFrom used := by
  unfold primary at h
  split at h
  case h_5 name s ts =>
    obtain ⟨⟨more, whole⟩, hmore, rfl⟩ := Outcome.map_eq_ok_iff.mp h
    obtain ⟨used, rfl, hcovers, hread⟩ :=
      exists_segments_readFrom hmore (Span.covers_singleton ⟨.identifier name, s⟩) hin
    refine ⟨⟨.identifier name, s⟩ :: used, rfl, ?_, hcovers⟩
    intro after hafter
    rw [List.cons_append, primary, hread after hafter]
    rfl
  case h_6 => cases h
  all_goals
    cases h
    exact ⟨[_], rfl, fun after _ => rfl, Span.covers_singleton _⟩

/-- The mark in front of the arguments is a colon or, behind another argument, a comma. -/
theorem exists_arguments_readFrom {args : List Primary} (h : arguments ts = (.ok args, rest)) (hin : InOrder ts) :
    ∃ used, ts = used ++ rest ∧ (∀ mark, Strung Primary.ReadFrom args (mark :: used)) ∧
      ∀ after, StopsAt argumentMarks after → arguments (used ++ after) = (.ok args, after) := by
  fun_induction arguments ts generalizing args with
  | case1 ts fault behind hprimary => cases h
  | case2 ts arg s behind hprimary ih =>
    obtain ⟨more, hmore, rfl⟩ := Outcome.map_eq_ok_iff.mp h
    obtain ⟨first, rfl, hfirst⟩ := exists_primary_readFrom hprimary hin
    have hbehind : InOrder behind :=
      hin.sublist ((List.sublist_cons_self _ _).trans (List.sublist_append_right _ _))
    obtain ⟨others, rfl, hothers, hread⟩ := ih hmore hbehind
    refine ⟨first ++ ⟨.comma, s⟩ :: others, by simp, ?_, ?_⟩
    · intro mark
      exact .cons [mark] hfirst (hothers ⟨.comma, s⟩)
    · intro after hafter
      have hcomma : StopsAt pathMarks (⟨.comma, s⟩ :: (others ++ after)) := by simp [stopsAt_cons_iff, pathMarks]
      rw [List.append_assoc, List.cons_append, (arguments_of_primary (hfirst.reads _ hcomma)).2 s _ rfl,
        hread after hafter]
      rfl
  | case3 ts arg behind hcomma hprimary =>
    cases h
    obtain ⟨first, rfl, hfirst⟩ := exists_primary_readFrom hprimary hin
    refine ⟨first, rfl, ?_, ?_⟩
    · intro mark
      have hstrung : Strung Primary.ReadFrom [arg] ([mark] ++ (first ++ [])) := .cons [mark] hfirst .nil
      rwa [List.append_nil] at hstrung
    · intro after hafter
      have hstop : StopsAt pathMarks after := hafter.mono (by simp [argumentMarks])
      exact (arguments_of_primary (hfirst.reads after hstop)).1 (hafter.mono (by simp [argumentMarks]))

theorem exists_callArguments_readFrom {args : List Primary} (h : callArguments ts = (.ok args, rest))
    (hin : InOrder ts) : ∃ used, ts = used ++ rest ∧ Strung Primary.ReadFrom args used ∧
      ∀ after, StopsAt (.colon :: argumentMarks) after → callArguments (used ++ after) = (.ok args, after) := by
  unfold callArguments at h
  split at h
  case h_1 s ts =>
    obtain ⟨used, rfl, hstrung, hread⟩ := exists_arguments_readFrom h (hin.sublist (List.sublist_cons_self _ _))
    refine ⟨⟨.colon, s⟩ :: used, rfl, hstrung _, ?_⟩
    intro after hafter
    exact hread after (hafter.mono (List.subset_cons_self _ _))
  case h_2 =>
    cases h
    refine ⟨[], rfl, .nil, ?_⟩
    intro after hafter
    exact callArguments_of_stopsAt (hafter.mono (by simp))

/-- A call ends with its last argument, or with its name. -/
theorem covers_call {call : FilterCall} {others : List Token} (hargs : Strung Primary.ReadFrom call.args others)
    (hin : InOrder (⟨.identifier call.name, call.nameSpan⟩ :: others)) :
    call.span.Covers (⟨.identifier call.name, call.nameSpan⟩ :: others) := by
  have hname := Span.covers_singleton ⟨.identifier call.name, call.nameSpan⟩
  unfold FilterCall.span
  cases hlast : call.args.getLast? with
  | none =>
    rw [List.getLast?_eq_none_iff.mp hlast] at hargs
    cases hargs
    exact hname
  | some last =>
    obtain ⟨gap, own, rfl, hown⟩ := hargs.exists_of_getLast hlast
    exact hname.join hown.covers hin

/-- What follows the filters of an expression follows their arguments too; and the next filter begins with a pipe. -/
theorem exists_calls_readFrom {cs : List FilterCall} (h : calls ts = (.ok cs, rest)) (hin : InOrder ts) :
    ∃ used, ts = used ++ rest ∧ Strung FilterCall.ReadFrom cs used ∧ (∀ t ∈ used.head?, t.lexeme = .pipe) ∧
      ∀ after, StopsAt callMarks after → calls (used ++ after) = (.ok cs, after) := by
  fun_induction calls ts generalizing cs with
  | case1 s₁ name s₂ ts fault behind hargs => cases h
  | case2 s₁ name s₂ ts args behind hargs ih =>
    obtain ⟨more, hmore, rfl⟩ := Outcome.map_eq_ok_iff.mp h
    have hcall : InOrder (⟨.identifier name, s₂⟩ :: ts) := hin.sublist (List.sublist_cons_self _ _)
    obtain ⟨first, rfl, hfirst, hread⟩ :=
      exists_callArguments_readFrom hargs (hcall.sublist (List.sublist_cons_self _ _))
    have hbehind : InOrder behind :=
      hcall.sublist ((List.sublist_append_right _ _).trans (List.sublist_cons_self _ _))
    obtain ⟨others, rfl, hothers, hpipe, hreads⟩ := ih hmore hbehind
    have hown : FilterCall.ReadFrom ⟨name, s₂, args⟩ (⟨.identifier name, s₂⟩ :: first) := by
      refine ⟨⟨first, rfl, hfirst⟩, covers_call hfirst (hcall.sublist ?_)⟩
      exact (List.sublist_append_left _ _).cons_cons _
    refine ⟨⟨.pipe, s₁⟩ :: ⟨.identifier name, s₂⟩ :: (first ++ others), by simp, .cons [_] hown hothers, by simp, ?_⟩
    intro after hafter
    have hnext : StopsAt (.colon :: argumentMarks) (others ++ after) := by
      cases others with
      | nil => exact hafter.mono (by simp [callMarks])
      | cons t others =>
        rw [List.cons_append, stopsAt_cons_iff, hpipe t rfl]
        simp [argumentMarks, pathMarks]
    rw [List.cons_append, List.cons_append, List.append_assoc, calls_of_callArguments (hread _ hnext),
      hreads after hafter]
    rfl
  | case3 => cases h
  | case4 =>
    cases h
    refine ⟨[], rfl, .nil, by simp, ?_⟩
    intro after hafter
    exact calls_of_stopsAt (hafter.mono (by simp [callMarks]))

theorem covers_filtered {e : Filtered} {first others : List Token} (hbase : e.base.ReadFrom first)
    (hcalls : Strung FilterCall.ReadFrom e.calls others) (hin : InOrder (first ++ others)) :
    e.span.Covers (first ++ others) := by
  unfold Filtered.span
  cases hlast : e.calls.getLast? with
  | none =>
    rw [List.getLast?_eq_none_iff.mp hlast] at hcalls
    cases hcalls
    rw [List.append_nil]
    exact hbase.covers
  | some last =>
    obtain ⟨gap, own, rfl, hown⟩ := hcalls.exists_of_getLast hlast
    exact hbase.covers.join hown.covers hin

theorem exists_filtered_readFrom {e : Filtered} (h : filtered ts = (.ok e, rest)) (hin : InOrder ts) :
    ∃ used, ts = used ++ rest ∧ e.ReadFrom used := by
  unfold filtered at h
  split at h
  case h_1 => cases h
  case h_2 base behind hbase =>
    obtain ⟨cs, hcs, rfl⟩ := Outcome.map_eq_ok_iff.mp h
    obtain ⟨first, rfl, hfirst⟩ := exists_primary_readFrom hbase hin
    obtain ⟨others, rfl, hothers, hpipe, hread⟩ :=
      exists_calls_readFrom hcs (hin.sublist (List.sublist_append_right _ _))
    have hused : InOrder (first ++ others) := by
      rw [← List.append_assoc] at hin
      exact hin.sublist (List.sublist_append_left _ _)
    refine ⟨first ++ others, by simp, ⟨first, others, rfl, hfirst, hothers⟩, ?_, covers_filtered hfirst hothers hused⟩
    intro after hafter
    have hnext : StopsAt pathMarks (others ++ after) := by
      cases others with
      | nil => exact hafter.mono (by simp [callMarks, argumentMarks, pathMarks])
      | cons t others =>
        rw [List.cons_append, stopsAt_cons_iff, hpipe t rfl]
        simp [pathMarks]
    rw [List.append_assoc, filtered, hfirst.reads _ hnext]
    simp only [hread after hafter]
    rfl

/-- An expression without comparison is a condition of its own. -/
theorem condition_of_filtered {e : Filtered} (h : filtered ts = (.ok e, [])) : condition ts = (.ok (.holds e), []) := by
  rw [condition, h]

theorem condition_readFrom_of_filtered {e : Filtered} {used : List Token} (h : e.ReadFrom used) :
    Condition.ReadFrom (.holds e) used := by
  have hread := h.reads [] (stopsAt_nil _)
  rw [List.append_nil] at hread
  exact ⟨h, condition_of_filtered hread, h.covers⟩

theorem condition_readFrom {c : Condition} (h : condition ts = (.ok c, [])) (hin : InOrder ts) : c.ReadFrom ts := by
  have hcopy := h
  unfold condition at h
  split at h
  case h_1 => cases h
  case h_2 left op s behind hleft =>
    split at h
    case h_1 => cases h
    case h_2 right last hright =>
      split at h
      · cases h
      · cases h
        obtain ⟨first, rfl, hfirst⟩ := exists_filtered_readFrom hleft hin
        have hbehind : InOrder behind :=
          hin.sublist ((List.sublist_cons_self _ _).trans (List.sublist_append_right _ _))
        obtain ⟨second, hsplit, hsecond⟩ := exists_filtered_readFrom hright hbehind
        rw [List.append_nil] at hsplit
        subst hsplit
        have hused : InOrder (first ++ ([⟨.comparison op, s⟩] ++ behind)) := hin
        exact ⟨⟨first, s, behind, rfl, hfirst, hsecond⟩, hcopy, hfirst.covers.join hsecond.covers hused⟩
  case h_3 left behind hop hleft =>
    cases h
    obtain ⟨used, hsplit, hused⟩ := exists_filtered_readFrom hleft hin
    rw [List.append_nil] at hsplit
    subst hsplit
    exact condition_readFrom_of_filtered hused

end Grammar

end TextTemplate
