import TextTemplate.Proofs.Expr.Faults
import TextTemplate.Proofs.Expr.Slices

namespace TextTemplate

open Token

namespace Tokens

/-- The tokens of a content, and as the last one the end of the tag. -/
def all (ts : Tokens) : List Token :=
  ts.toList ++ [ts.endToken]

/-- The cursor with the first `n` tokens behind it. -/
def cursor (ts : Tokens) (n : Nat) : Cursor :=
  ⟨ts.toList.drop n, ts.stop⟩

/-- The place where a cursor stands, among all tokens. -/
def position (ts : Tokens) (c : Cursor) : Nat :=
  ts.toList.length - c.rest.length

/-- The tokens from place `p` on, up to the one in front of place `q`. -/
def between (ts : Tokens) (p q : Nat) : List Token :=
  (ts.toList.drop p).take (q - p)

end Tokens

namespace Cursor

variable {ts : Tokens} {c d : Cursor}

/-- A cursor that came from the beginning is known by its place. -/
theorem Leads.eq_cursor (h : (ts.cursor 0).Leads c) : c = ts.cursor (ts.position c) := by
  obtain ⟨rest, stop⟩ := c
  have hsuffix : rest <:+ ts.toList := h.suffix
  have hrest : rest = ts.toList.drop (ts.toList.length - rest.length) := List.suffix_iff_eq_drop.mp hsuffix
  have hstop : stop = ts.stop := h.stop_eq
  rw [Tokens.cursor, Tokens.position, ← hrest, hstop]

theorem Leads.length_le (h : c.Leads d) : d.rest.length ≤ c.rest.length :=
  h.suffix.length_le

theorem Leads.position_le (h : c.Leads d) : ts.position c ≤ ts.position d := by
  have hlength := h.length_le
  unfold Tokens.position
  omega

theorem Leads.position_peek (h : (ts.cursor 0).Leads c) : ts.all[ts.position c]? = some c.peek := by
  obtain ⟨rest, stop⟩ := c
  obtain ⟨front, hsplit⟩ := h.suffix
  have hall : ts.toList = front ++ rest := hsplit.symm
  have hposition : ts.position ⟨rest, stop⟩ = front.length := by
    rw [Tokens.position, hall]
    simp
  have hstop : stop = ts.stop := h.stop_eq
  rw [Tokens.all, hposition, hall, hstop]
  cases rest with
  | nil => simp [peek, Tokens.endToken]
  | cons t rest => simp [peek]

/-- What a cursor has left behind on its way to another stands between their places. -/
theorem Leads.between_eq {used : List Token} (h : (ts.cursor 0).Leads c) (hused : c.rest = used ++ d.rest) :
    ts.between (ts.position c) (ts.position d) = used := by
  have hlength : c.rest.length ≤ ts.toList.length := h.length_le
  have hparts : c.rest.length = used.length + d.rest.length := by
    rw [hused, List.length_append]
  have hcount : ts.position d - ts.position c = used.length := by
    unfold Tokens.position
    omega
  have hrest : ts.toList.drop (ts.position c) = used ++ d.rest := by
    rw [← hused]
    exact (congrArg Cursor.rest h.eq_cursor).symm
  rw [Tokens.between, hrest, hcount, List.take_left]

/-- What can be asked of a cursor. -/
inductive Call where
  | advance
  | expect (kind : Token.Kind)
  | expectIdentifier (what : String)
  | expectKeyword (keyword : String)
  | expectEnd
  | primary
  | filtered
  | condition

namespace Call

/-- The calls that take one token or none. -/
def Expects : Call → Prop
  | expect _ | expectIdentifier _ | expectKeyword _ | expectEnd => True
  | advance | primary | filtered | condition => False

/-- The calls that read an expression. -/
def Reads : Call → Prop
  | primary | filtered | condition => True
  | advance | expect _ | expectIdentifier _ | expectKeyword _ | expectEnd => False

end Call

/-- What a call gives if it succeeds. -/
inductive Answer where
  | nothing
  | token (t : Token)
  | identifier (name : String) (span : Span)
  | primary (p : Primary)
  | filtered (e : Filtered)
  | condition (condition : Condition)

/-- The span of an answer that is an expression. -/
def Answer.extent? : Answer → Option Span
  | primary p => some p.span
  | filtered e => some e.span
  | condition c => some c.span
  | nothing | token _ | identifier _ _ => none

/-- The answer to a call, or its error, and the cursor behind it. -/
def perform (c : Cursor) : Call → Except SyntaxError Answer × Cursor
  | .advance => (.ok .nothing, c.advance)
  | .expect kind => ((c.expect kind).1.map .token, (c.expect kind).2)
  | .expectIdentifier what =>
    ((c.expectIdentifier what).1.map fun (name, span) => .identifier name span, (c.expectIdentifier what).2)
  | .expectKeyword keyword => ((c.expectKeyword keyword).1.map fun _ => .nothing, (c.expectKeyword keyword).2)
  | .expectEnd => (c.expectEnd.map fun _ => .nothing, c)
  | .primary => (c.primary.1.map .primary, c.primary.2)
  | .filtered => (c.filtered.1.map .filtered, c.filtered.2)
  | .condition => (c.condition.1.map .condition, c.condition.2)

/-- A call in a sequence of calls, what it gave, and the cursor in front of it and behind it. -/
structure Step where
  before : Cursor
  call : Call
  answer : Except SyntaxError Answer
  after : Cursor

/-- The calls one after the other, each on the cursor that the one before has left, also after an error. -/
def steps (c : Cursor) : List Call → List Step
  | [] => []
  | call :: calls => ⟨c, call, (c.perform call).1, (c.perform call).2⟩ :: (c.perform call).2.steps calls

/-- All that a call can do: take the token at hand, stay at the end, refuse the token at hand, read an expression from
the next tokens, or stop at a token behind some of them. -/
inductive Performs (c : Cursor) : Call → Except SyntaxError Answer → Cursor → Prop
  | took {call : Call} {a : Answer} (hcall : ¬ call.Reads) : Performs c call (.ok a) c.advance
  | ended : Performs c .expectEnd (.ok .nothing) c
  | refused {call : Call} {fault : SyntaxFault} : Performs c call (.error ⟨fault, c.peek.span⟩) c
  | read {call : Call} {a : Answer} {span : Span} {used rest : List Token} (ha : a.extent? = some span)
      (hused : c.rest = used ++ rest) (hcovers : span.Covers used) : Performs c call (.ok a) ⟨rest, c.stop⟩
  | stopped {call : Call} {fault : SyntaxFault} {rest : List Token} (hcall : ¬ call.Expects) (hrest : rest <:+ c.rest) :
      Performs c call (.error ⟨fault, (peek ⟨rest, c.stop⟩).span⟩) ⟨rest, c.stop⟩

end Cursor

namespace Grammar

variable {ts rest : List Token}

/-- A condition reaches over the tokens that it is read from, whatever stands behind them. -/
theorem exists_condition_covers {c : Condition} (h : condition ts = (.ok c, rest)) (hin : InOrder ts) :
    ∃ used, ts = used ++ rest ∧ c.span.Covers used := by
  unfold condition at h
  split at h
  case h_1 => cases h
  case h_2 left op s behind hleft =>
    split at h
    case h_1 => cases h
    case h_2 right last hright =>
      split at h
      · cases h
      · cases h
        obtain ⟨first, rfl, hfirst⟩ := exists_filtered_readFrom hleft hin
        have hbehind : InOrder behind :=
          hin.sublist ((List.sublist_cons_self _ _).trans (List.sublist_append_right _ _))
        obtain ⟨second, rfl, hsecond⟩ := exists_filtered_readFrom hright hbehind
        have hsplit : first ++ ⟨.comparison op, s⟩ :: (second ++ rest) =
            first ++ ([⟨.comparison op, s⟩] ++ second) ++ rest := by simp
        have hused : InOrder (first ++ ([⟨.comparison op, s⟩] ++ second)) := by
          rw [hsplit] at hin
          exact hin.sublist (List.sublist_append_left _ _)
        exact ⟨_, hsplit, hfirst.covers.join hsecond.covers hused⟩
  case h_3 left behind hop hleft =>
    cases h
    obtain ⟨used, hsplit, hused⟩ := exists_filtered_readFrom hleft hin
    exact ⟨used, hsplit, hused.covers⟩

end Grammar

namespace Cursor

open Grammar

variable {ts : Tokens} {c d : Cursor}

/-- Reading by a rule gives an expression over the tokens that are used, or stops at a token behind some of them. -/
theorem performs_parse {α : Type} {call : Call} {rule : List Token → Grammar.Outcome α} {answer : α → Answer}
    {extent : α → Span} (hcall : ¬ call.Expects) (hextent : ∀ a, (answer a).extent? = some (extent a))
    (hsuffix : ∀ ts, (rule ts).2 <:+ ts)
    (hcovers : ∀ {a rest}, rule c.rest = (.ok a, rest) → ∃ used, c.rest = used ++ rest ∧ (extent a).Covers used) :
    c.Performs call ((c.parse rule).1.map answer) (c.parse rule).2 := by
  have hrest := hsuffix c.rest
  unfold parse
  split
  · rename_i a rest hrule
    obtain ⟨used, hused, hspan⟩ := hcovers hrule
    exact .read (hextent a) hused hspan
  · rename_i fault rest hrule
    rw [hrule] at hrest
    exact .stopped hcall hrest

theorem performs_expect (c : Cursor) (kind : Token.Kind) :
    c.Performs (.expect kind) ((c.expect kind).1.map .token) (c.expect kind).2 := by
  unfold expect
  split
  · exact .took id
  · exact .refused

theorem performs_expectIdentifier (c : Cursor) (what : String) :
    c.Performs (.expectIdentifier what) ((c.expectIdentifier what).1.map fun (name, span) => .identifier name span)
      (c.expectIdentifier what).2 := by
  unfold expectIdentifier
  split
  · exact .took id
  · exact .refused

theorem performs_expectKeyword (c : Cursor) (keyword : String) :
    c.Performs (.expectKeyword keyword) ((c.expectKeyword keyword).1.map fun _ => .nothing)
      (c.expectKeyword keyword).2 := by
  unfold expectKeyword
  split
  · split
    · exact .took id
    · exact .refused
  · exact .refused

theorem performs_expectEnd (c : Cursor) : c.Performs .expectEnd (c.expectEnd.map fun _ => .nothing) c := by
  unfold expectEnd
  split
  · exact .ended
  · exact .refused

theorem performs_perform (hin : InOrder c.rest) (call : Call) :
    c.Performs call (c.perform call).1 (c.perform call).2 := by
  cases call with
  | advance => exact .took id
  | expect kind => exact c.performs_expect kind
  | expectIdentifier what => exact c.performs_expectIdentifier what
  | expectKeyword keyword => exact c.performs_expectKeyword keyword
  | expectEnd => exact c.performs_expectEnd
  | primary =>
    refine performs_parse id (fun _ => rfl) suffix_primary ?_
    intro p rest h
    obtain ⟨used, hused, hread⟩ := exists_primary_readFrom h hin
    exact ⟨used, hused, hread.covers⟩
  | filtered =>
    refine performs_parse id (fun _ => rfl) suffix_filtered ?_
    intro e rest h
    obtain ⟨used, hused, hread⟩ := exists_filtered_readFrom h hin
    exact ⟨used, hused, hread.covers⟩
  | condition =>
    refine performs_parse id (fun _ => rfl) suffix_condition ?_
    intro condition rest h
    exact exists_condition_covers h hin

theorem Performs.leads {call : Call} {answer : Except SyntaxError Answer} (h : c.Performs call answer d) :
    c.Leads d := by
  cases h with
  | took => exact leads_advance c
  | ended | refused => exact .refl c
  | read ha hused hcovers => exact ⟨⟨_, hused.symm⟩, rfl⟩
  | stopped hcall hrest => exact ⟨hrest, rfl⟩

/-- An error is at the token at hand behind the call. -/
theorem Performs.span_eq {call : Call} {e : SyntaxError} (h : c.Performs call (.error e) d) : e.span = d.peek.span := by
  cases h with
  | refused => rfl
  | stopped => rfl

/-- What a call in a sequence keeps to, by the places in front of it and behind it. -/
structure Step.Orderly (ts : Tokens) (s : Step) : Prop where
  before : s.before = ts.cursor (ts.position s.before)
  after : s.after = ts.cursor (ts.position s.after)
  forward : ts.position s.before ≤ ts.position s.after
  bounded : ts.position s.after ≤ ts.toList.length
  atFault : ∀ e, s.answer = .error e → ∃ t, ts.all[ts.position s.after]? = some t ∧ e.span = t.span
  refused : s.call.Expects → ∀ e, s.answer = .error e → ts.position s.after = ts.position s.before
  consumed : s.call.Reads → ∀ a, s.answer = .ok a → ∃ span, a.extent? = some span ∧
    ts.position s.before < ts.position s.after ∧ span.Covers (ts.between (ts.position s.before) (ts.position s.after))

/-- The tokens that are left are in order if those of the content are. -/
theorem Leads.inOrder (h : c.Leads d) (hin : InOrder c.rest) : InOrder d.rest :=
  hin.sublist h.suffix.sublist

theorem Performs.orderly {call : Call} {answer : Except SyntaxError Answer} (hc : (ts.cursor 0).Leads c)
    (h : c.Performs call answer d) : Step.Orderly ts ⟨c, call, answer, d⟩ := by
  have hd : (ts.cursor 0).Leads d := hc.trans h.leads
  refine ⟨hc.eq_cursor, hd.eq_cursor, h.leads.position_le, Nat.sub_le _ _, ?_, ?_, ?_⟩
  · rintro e rfl
    exact ⟨d.peek, hd.position_peek, h.span_eq⟩
  · rintro hcall e rfl
    cases h with
    | refused => rfl
    | stopped hother hrest => exact absurd hcall hother
  · rintro hcall a rfl
    cases h with
    | took hother => exact absurd hcall hother
    | ended => exact hcall.elim
    | @read _ _ span used rest ha hused hcovers =>
      have hbetween := hc.between_eq (d := ⟨rest, c.stop⟩) hused
      have hmore : 0 < used.length := by
        obtain ⟨first, hfirst, -⟩ := hcovers
        exact List.length_pos_of_mem (List.mem_of_mem_head? hfirst)
      have hlength : c.rest.length ≤ ts.toList.length := hc.length_le
      have hparts : c.rest.length = used.length + rest.length := by rw [hused, List.length_append]
      refine ⟨span, ha, ?_, ?_⟩
      · simp only [Tokens.position]
        omega
      · rw [hbetween]
        exact hcovers

/-- Every step of a sequence is a call on a cursor that the calls before it have led to. -/
theorem exists_of_mem_steps (hin : InOrder c.rest) {calls : List Call} {s : Step} (hs : s ∈ c.steps calls) :
    c.Leads s.before ∧ s.before.Performs s.call s.answer s.after := by
  induction calls generalizing c with
  | nil => cases hs
  | cons call calls ih =>
    have hperforms := performs_perform hin call
    rcases List.mem_cons.mp hs with rfl | hlater
    · exact ⟨.refl c, hperforms⟩
    · obtain ⟨hleads, hlast⟩ := ih (hperforms.leads.inOrder hin) hlater
      exact ⟨hperforms.leads.trans hleads, hlast⟩

/-- No later call stands in front of an earlier one. -/
theorem pairwise_steps (hin : InOrder c.rest) (calls : List Call) :
    (c.steps calls).Pairwise fun s s' => s.after.Leads s'.before := by
  induction calls generalizing c with
  | nil => exact .nil
  | cons call calls ih =>
    have hnext : InOrder (c.perform call).2.rest := (performs_perform hin call).leads.inOrder hin
    refine List.pairwise_cons.mpr ⟨?_, ih hnext⟩
    intro s hs
    exact (exists_of_mem_steps hnext hs).1

/-- Every sequence of calls on the cursor of a content, failed ones among them, moves forward only; errors are at the
token reached, and expressions reach over the tokens left behind for them. -/
theorem steps_are_orderly {content : List Char} (h : ofContent content = .ok c) :
    ∃ ts, lex content = .ok ts ∧ c = ts.cursor 0 ∧ ∀ calls,
      (∀ s ∈ c.steps calls, s.Orderly ts) ∧
      (c.steps calls).Pairwise fun s s' => ts.position s.after ≤ ts.position s'.before := by
  unfold ofContent at h
  split at h
  · rename_i ts hlex
    cases h
    refine ⟨ts, hlex, rfl, ?_⟩
    have hin : InOrder (ts.cursor 0).rest := inOrder_of_lex hlex
    intro calls
    constructor
    · intro s hs
      obtain ⟨hleads, hperforms⟩ := exists_of_mem_steps hin hs
      exact hperforms.orderly hleads
    · exact (pairwise_steps hin calls).imp fun hleads => hleads.position_le
  · cases h

/-- Calls that fail in front of an expression, within one and at the end of the tag, and calls that go on after that. -/
theorem steps_are_orderly_failed :
    let calls : List Call := [.expect .colon, .condition, .expectIdentifier "name", .advance, .filtered,
      .expectKeyword "in", .advance, .primary, .expectEnd, .advance, .condition]
    ∃ c ts, ofContent "a.b | f: 1, ] c[0] | g == ".toList = .ok c ∧
      (c.steps calls).map (fun s => (s.answer.isOk, ts.position s.after)) =
        [(false, 0), (false, 8), (false, 8), (true, 9), (true, 15), (false, 15), (true, 16), (false, 16), (true, 16),
          (true, 16), (false, 16)] ∧
      (∀ s ∈ c.steps calls, s.Orderly ts) ∧
      (c.steps calls).Pairwise fun s s' => ts.position s.after ≤ ts.position s'.before := by
  intro calls
  have hplaces : (ofContent "a.b | f: 1, ] c[0] | g == ".toList).map
      (fun c => (c.steps calls).map fun s => (s.answer.isOk, c.rest.length - s.after.rest.length)) =
        .ok [(false, 0), (false, 8), (false, 8), (true, 9), (true, 15), (false, 15), (true, 16), (false, 16),
          (true, 16), (true, 16), (false, 16)] := by
    decide +kernel
  obtain ⟨c, hc, hplaces⟩ := Outcome.map_eq_ok_iff.mp hplaces
  obtain ⟨ts, -, hstart, hsteps⟩ := steps_are_orderly hc
  have hrest : c.rest = ts.toList := congrArg Cursor.rest hstart
  rw [hrest] at hplaces
  exact ⟨c, ts, hc, hplaces, hsteps calls⟩

end Cursor

end TextTemplate
