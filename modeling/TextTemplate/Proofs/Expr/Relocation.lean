import TextTemplate.Proofs.Expr.Recognition

namespace TextTemplate

namespace Span

/-- A way to move spans that moves a join to the join of the moved spans. -/
def KeepsJoin (f : Span → Span) : Prop :=
  ∀ a b, f (a.join b) = (f a).join (f b)

/-- So many bytes further on. -/
def forward (bytes : Nat) (s : Span) : Span :=
  ⟨s.start + bytes, s.stop + bytes⟩

/-- So many bytes nearer to the beginning. -/
def back (bytes : Nat) (s : Span) : Span :=
  ⟨s.start - bytes, s.stop - bytes⟩

/-- No place at all. -/
def erased (_ : Span) : Span :=
  ⟨0, 0⟩

theorem keepsJoin_forward (bytes : Nat) : KeepsJoin (forward bytes) := by
  intro a b
  simp only [forward, join, Span.mk.injEq]
  omega

theorem keepsJoin_erased : KeepsJoin erased := by
  intro a b
  simp [erased, join]

theorem back_forward (bytes : Nat) (s : Span) : back bytes (forward bytes s) = s := by
  simp [back, forward]

end Span

def Token.relocate (f : Span → Span) (t : Token) : Token :=
  ⟨t.lexeme, f t.span⟩

def Primary.relocate (f : Span → Span) : Primary → Primary
  | .literal value span => .literal value (f span)
  | .path segments span => .path segments (f span)

def FilterCall.relocate (f : Span → Span) (call : FilterCall) : FilterCall :=
  ⟨call.name, f call.nameSpan, call.args.map (Primary.relocate f)⟩

def Filtered.relocate (f : Span → Span) (e : Filtered) : Filtered :=
  ⟨e.base.relocate f, e.calls.map (FilterCall.relocate f)⟩

def Condition.relocate (f : Span → Span) : Condition → Condition
  | .holds e => .holds (e.relocate f)
  | .compares op left right => .compares op (left.relocate f) (right.relocate f)

theorem Primary.relocate_erased (p : Primary) : p.relocate Span.erased = p.bare := by
  cases p <;> rfl

theorem FilterCall.relocate_erased (call : FilterCall) : call.relocate Span.erased = call.bare := by
  rw [FilterCall.relocate, FilterCall.bare, List.map_congr_left fun p _ => p.relocate_erased]
  rfl

theorem Filtered.relocate_erased (e : Filtered) : e.relocate Span.erased = e.bare := by
  rw [Filtered.relocate, Filtered.bare, e.base.relocate_erased,
    List.map_congr_left fun call _ => call.relocate_erased]

theorem Condition.relocate_erased (c : Condition) : c.relocate Span.erased = c.bare := by
  cases c with
  | holds e => rw [Condition.relocate, Condition.bare, e.relocate_erased]
  | compares op left right =>
    rw [Condition.relocate, Condition.bare, left.relocate_erased, right.relocate_erased]

section Cancel

variable {f g : Span → Span}

theorem Primary.relocate_cancel (h : ∀ s, g (f s) = s) (p : Primary) : (p.relocate f).relocate g = p := by
  cases p <;> simp only [Primary.relocate, h]

theorem FilterCall.relocate_cancel (h : ∀ s, g (f s) = s) (call : FilterCall) :
    (call.relocate f).relocate g = call := by
  have hargs : Primary.relocate g ∘ Primary.relocate f = id := funext fun p => p.relocate_cancel h
  simp only [FilterCall.relocate, h, List.map_map, hargs, List.map_id]

theorem Filtered.relocate_cancel (h : ∀ s, g (f s) = s) (e : Filtered) : (e.relocate f).relocate g = e := by
  have hcalls : FilterCall.relocate g ∘ FilterCall.relocate f = id := funext fun call => call.relocate_cancel h
  simp only [Filtered.relocate, Primary.relocate_cancel h, List.map_map, hcalls, List.map_id]

theorem Condition.relocate_cancel (h : ∀ s, g (f s) = s) (c : Condition) : (c.relocate f).relocate g = c := by
  cases c <;> simp only [Condition.relocate, Filtered.relocate_cancel h]

end Cancel

namespace Grammar

variable {f : Span → Span}

/-- The result moved by `g` and the tokens that are left by `f`. -/
def Outcome.relocate {α : Type} (g : α → α) (f : Span → Span) (o : Outcome α) : Outcome α :=
  (o.1.map g, o.2.map (Token.relocate f))

theorem Outcome.relocate_map {α β : Type} {g : α → α} {g' : β → β} {k k' : α → β} (h : ∀ a, g' (k a) = k' (g a))
    (f : Span → Span) (o : Outcome α) : (o.map k).relocate g' f = (o.relocate g f).map k' := by
  obtain ⟨r, rest⟩ := o
  cases r with
  | error fault => rfl
  | ok a => simp [Outcome.map, Outcome.relocate, Except.map, h]

theorem headKind_relocate (ts : List Token) : headKind (ts.map (Token.relocate f)) = headKind ts := by
  cases ts <;> rfl

theorem stopsAt_relocate_iff {marks : List Token.Lexeme} {ts : List Token} :
    StopsAt marks (ts.map (Token.relocate f)) ↔ StopsAt marks ts := by
  cases ts with
  | nil => simp [stopsAt_nil]
  | cons t ts =>
    rw [List.map_cons, stopsAt_cons_iff, stopsAt_cons_iff]
    rfl

theorem stopsAt_singleton_iff {l : Token.Lexeme} {ts : List Token} :
    StopsAt [l] ts ↔ ∀ s rest, ts ≠ ⟨l, s⟩ :: rest := by
  constructor
  · rintro h s rest rfl
    simp [stopsAt_cons_iff] at h
  · intro h
    rcases ts with _ | ⟨⟨l', s⟩, rest⟩
    · exact stopsAt_nil _
    · rw [stopsAt_cons_iff, List.mem_singleton]
      rintro rfl
      exact h s rest rfl

theorem segments_field (span s₁ s₂ : Span) (name : String) (ts : List Token) :
    segments span (⟨.dot, s₁⟩ :: ⟨.identifier name, s₂⟩ :: ts) =
      (segments (span.join s₂) ts).map fun (more, whole) => (.key name :: more, whole) :=
  rfl

theorem segments_subscript {t : Token} {segment : Segment} (h : subscript? t.lexeme = some segment)
    (span s₁ s₂ : Span) (ts : List Token) :
    segments span (⟨.leftBracket, s₁⟩ :: t :: ⟨.rightBracket, s₂⟩ :: ts) =
      (segments (span.join s₂) ts).map fun (more, whole) => (segment :: more, whole) := by
  rw [segments, h]

theorem segments_relocate (hf : Span.KeepsJoin f) (span : Span) (ts : List Token) :
    segments (f span) (ts.map (Token.relocate f)) = (segments span ts).relocate (Prod.map id f) f := by
  have hcons (segment : Segment) (o : Outcome (List Segment × Span)) :
      (o.map fun (more, whole) => (segment :: more, whole)).relocate (Prod.map id f) f =
        (o.relocate (Prod.map id f) f).map fun (more, whole) => (segment :: more, whole) :=
    Outcome.relocate_map (by intro _; rfl) f o
  fun_induction segments span ts with
  | case1 span s₁ name s₂ rest ih =>
    rw [hcons, ← ih, hf]
    exact segments_field _ _ _ _ _
  | case2 span s₁ rest hname =>
    rcases rest with _ | ⟨⟨l, s₂⟩, rest⟩
    · rfl
    · cases l
      case identifier name => exact absurd rfl (hname name s₂ rest)
      all_goals rfl
  | case3 span s₁ t s₂ rest segment h ih =>
    rw [hcons, ← ih, hf]
    exact segments_subscript (t := t.relocate f) h _ _ _ _
  | case4 span s₁ t s₂ rest h => simp [segments, Token.relocate, h, Outcome.relocate, Except.map, Token.kind]
  | case5 span s₁ t rest hbracket segment h =>
    rcases rest with _ | ⟨⟨l, s₂⟩, rest⟩
    · simp [segments, Token.relocate, h, Outcome.relocate, Except.map, headKind]
    · cases l
      case rightBracket => exact absurd rfl (hbracket s₂ rest)
      all_goals simp [segments, Token.relocate, h, Outcome.relocate, Except.map, headKind, Token.kind]
  | case6 span s₁ t rest hbracket h =>
    rcases rest with _ | ⟨⟨l, s₂⟩, rest⟩
    · simp [segments, Token.relocate, h, Outcome.relocate, Except.map, Token.kind]
    · cases l
      case rightBracket => exact absurd rfl (hbracket s₂ rest)
      all_goals simp [segments, Token.relocate, h, Outcome.relocate, Except.map, Token.kind]
  | case7 => rfl
  | case8 span ts hfield hdot hsubscript hbracket hlone =>
    have hstop : StopsAt pathMarks ts := by
      rcases ts with _ | ⟨⟨l, s⟩, rest⟩
      · exact stopsAt_nil _
      · rw [stopsAt_cons_iff]
        intro hmem
        simp only [pathMarks, List.mem_cons, List.not_mem_nil, or_false] at hmem
        rcases hmem with rfl | rfl
        · exact hdot s rest rfl
        · cases rest with
          | nil => exact hlone s rfl
          | cons t rest => exact hbracket s t rest rfl
    rw [segments_of_stopsAt (stopsAt_relocate_iff.mpr hstop)]
    rfl

theorem primary_relocate (hf : Span.KeepsJoin f) (ts : List Token) :
    primary (ts.map (Token.relocate f)) = (primary ts).relocate (Primary.relocate f) f := by
  rcases ts with _ | ⟨⟨l, s⟩, rest⟩
  · rfl
  · cases l
    case identifier name =>
      have hpath : ∀ o : Outcome (List Segment × Span),
          (o.map fun (more, whole) => Primary.path (.key name :: more) whole).relocate (Primary.relocate f) f =
            (o.relocate (Prod.map id f) f).map fun (more, whole) => .path (.key name :: more) whole :=
        fun o => Outcome.relocate_map (by intro _; rfl) f o
      rw [primary, hpath, ← segments_relocate hf]
      rfl
    all_goals rfl

theorem arguments_of_fault {ts rest : List Token} {fault : SyntaxFault} (h : primary ts = (.error fault, rest)) :
    arguments ts = (.error fault, rest) := by
  rw [arguments]
  split <;> simp_all

theorem arguments_relocate (hf : Span.KeepsJoin f) (ts : List Token) :
    arguments (ts.map (Token.relocate f)) = (arguments ts).relocate (List.map (Primary.relocate f)) f := by
  fun_induction arguments ts with
  | case1 ts fault rest h =>
    have hprimary : primary (ts.map (Token.relocate f)) = (.error fault, rest.map (Token.relocate f)) := by
      rw [primary_relocate hf, h]
      rfl
    exact arguments_of_fault hprimary
  | case2 ts arg s rest h ih =>
    have hprimary : primary (ts.map (Token.relocate f)) =
        (.ok (arg.relocate f), ⟨.comma, f s⟩ :: rest.map (Token.relocate f)) := by
      rw [primary_relocate hf, h]
      rfl
    rw [(arguments_of_primary hprimary).2 (f s) _ rfl, ih]
    exact (Outcome.relocate_map (by intro _; rfl) f _).symm
  | case3 ts arg rest hcomma h =>
    have hprimary : primary (ts.map (Token.relocate f)) = (.ok (arg.relocate f), rest.map (Token.relocate f)) := by
      rw [primary_relocate hf, h]
      rfl
    have hstop : StopsAt [.comma] rest := stopsAt_singleton_iff.mpr hcomma
    rw [(arguments_of_primary hprimary).1 (stopsAt_relocate_iff.mpr hstop)]
    rfl

theorem callArguments_of_stopsAt {ts : List Token} (h : StopsAt [.colon] ts) : callArguments ts = (.ok [], ts) := by
  unfold callArguments
  split
  · simp [stopsAt_cons_iff] at h
  · rfl

theorem callArguments_relocate (hf : Span.KeepsJoin f) (ts : List Token) :
    callArguments (ts.map (Token.relocate f)) = (callArguments ts).relocate (List.map (Primary.relocate f)) f := by
  by_cases hcolon : StopsAt [.colon] ts
  · rw [callArguments_of_stopsAt hcolon, callArguments_of_stopsAt (stopsAt_relocate_iff.mpr hcolon)]
    rfl
  · rw [stopsAt_singleton_iff] at hcolon
    push Not at hcolon
    obtain ⟨s, rest, rfl⟩ := hcolon
    exact arguments_relocate hf rest

theorem calls_of_fault {name : String} {s₁ s₂ : Span} {ts rest : List Token} {fault : SyntaxFault}
    (h : callArguments ts = (.error fault, rest)) :
    calls (⟨.pipe, s₁⟩ :: ⟨.identifier name, s₂⟩ :: ts) = (.error fault, rest) := by
  rw [calls]
  split <;> simp_all

/-- Behind a pipe that no name follows there is no filter. -/
theorem calls_of_nameless {s : Span} {ts : List Token} (h : ∀ name s' rest, ts ≠ ⟨.identifier name, s'⟩ :: rest) :
    calls (⟨.pipe, s⟩ :: ts) = (.error (.expected "filter name after '|'" (headKind ts)), ts) := by
  rw [calls]
  exact h

theorem calls_relocate (hf : Span.KeepsJoin f) (ts : List Token) :
    calls (ts.map (Token.relocate f)) = (calls ts).relocate (List.map (FilterCall.relocate f)) f := by
  fun_induction calls ts with
  | case1 s₁ name s₂ rest fault after h =>
    have hargs : callArguments (rest.map (Token.relocate f)) = (.error fault, after.map (Token.relocate f)) := by
      rw [callArguments_relocate hf, h]
      rfl
    exact calls_of_fault hargs
  | case2 s₁ name s₂ rest args after h ih =>
    have hargs : callArguments (rest.map (Token.relocate f)) =
        (.ok (args.map (Primary.relocate f)), after.map (Token.relocate f)) := by
      rw [callArguments_relocate hf, h]
      rfl
    calc
      _ = (calls (after.map (Token.relocate f))).map (⟨name, f s₂, args.map (Primary.relocate f)⟩ :: ·) :=
        calls_of_callArguments hargs
      _ = ((calls after).map (⟨name, s₂, args⟩ :: ·)).relocate (List.map (FilterCall.relocate f)) f := by
        rw [ih]
        exact (Outcome.relocate_map (by intro _; rfl) f _).symm
  | case3 s rest hname =>
    have hnameless : ∀ name s' after, rest.map (Token.relocate f) ≠ ⟨.identifier name, s'⟩ :: after := by
      intro name s' after heq
      obtain ⟨⟨l, s''⟩, behind, rfl, ht, -⟩ := List.map_eq_cons_iff.mp heq
      obtain ⟨rfl, -⟩ := Token.mk.inj ht
      exact hname name s'' behind rfl
    calc
      _ = _ := calls_of_nameless hnameless
      _ = _ := by
        rw [headKind_relocate]
        rfl
  | case4 ts hcall hpipe =>
    have hstop : StopsAt [.pipe] ts := stopsAt_singleton_iff.mpr hpipe
    rw [calls_of_stopsAt (stopsAt_relocate_iff.mpr hstop)]
    rfl

theorem filtered_relocate (hf : Span.KeepsJoin f) (ts : List Token) :
    filtered (ts.map (Token.relocate f)) = (filtered ts).relocate (Filtered.relocate f) f := by
  unfold filtered
  rw [primary_relocate hf]
  rcases primary ts with ⟨fault | base, rest⟩
  · rfl
  · change (calls (rest.map (Token.relocate f))).map (Filtered.mk (base.relocate f)) = _
    rw [calls_relocate hf]
    exact (Outcome.relocate_map (by intro _; rfl) f _).symm

theorem comparison?_relocate (ts : List Token) : comparison? (ts.map (Token.relocate f)) = comparison? ts := by
  rcases ts with _ | ⟨⟨l, s⟩, rest⟩
  · rfl
  · cases l <;> rfl

theorem condition_relocate (hf : Span.KeepsJoin f) (ts : List Token) :
    condition (ts.map (Token.relocate f)) = (condition ts).relocate (Condition.relocate f) f := by
  unfold condition
  rw [filtered_relocate hf]
  rcases filtered ts with ⟨fault | left, rest⟩
  · rfl
  · rcases rest with _ | ⟨⟨l, s⟩, rest⟩
    · rfl
    · cases l
      case comparison op =>
        simp only [Outcome.relocate, Except.map, List.map_cons, Token.relocate, filtered_relocate hf]
        rcases filtered rest with ⟨fault | right, after⟩
        · rfl
        · simp only [comparison?_relocate]
          split <;> rfl
      all_goals rfl

end Grammar

end TextTemplate
