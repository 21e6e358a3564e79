import TextTemplate.Expr.Basic
import TextTemplate.Expr.Lexer

namespace TextTemplate

/-- Why a sequence of tokens does not fit the grammar. -/
inductive SyntaxFault where
  | lexical (f : LexFault)
  | expected (what : String) (found : Token.Kind)
  | secondComparison
  | comparisonOutsideCondition
  | booleanOperator (word : String)
  | unexpected (found : Token.Kind)
deriving DecidableEq, Repr

namespace SyntaxFault

def message : SyntaxFault → String
  | lexical f => f.message
  | expected what found => "Expected " ++ what ++ ", found " ++ found.describe
  | secondComparison => "Only one comparison is allowed per condition"
  | comparisonOutsideCondition => "Comparison operators are only allowed in if/elsif conditions"
  | booleanOperator word => "Boolean operator '" ++ word ++ "' is not supported"
  | unexpected found => "Unexpected " ++ found.describe

end SyntaxFault

namespace Grammar

/-- A result or a fault, and the tokens that are left, which after a fault begin with the token that did not fit. -/
abbrev Outcome (α : Type) := Except SyntaxFault α × List Token

def Outcome.map {α β : Type} (f : α → β) (o : Outcome α) : Outcome β :=
  (o.1.map f, o.2)

def headKind : List Token → Token.Kind
  | [] => .endOfTag
  | t :: _ => t.kind

/-- The segment that a token writes between brackets. -/
def subscript? : Token.Lexeme → Option Segment
  | .number n => n.index?.map .index
  | .string name => some (.key name)
  | _ => none

/-- Reads `('.' identifier | '[' index ']' | '[' string ']')*`, the segments that follow, with the span from `span` to
the last of them. -/
def segments (span : Span) : List Token → Outcome (List Segment × Span)
  | ⟨.dot, _⟩ :: ⟨.identifier name, s⟩ :: rest =>
    (segments (span.join s) rest).map fun (more, whole) => (.key name :: more, whole)
  | ⟨.dot, _⟩ :: rest => (.error (.expected "property name after '.'" (headKind rest)), rest)
  | ⟨.leftBracket, _⟩ :: t :: ⟨.rightBracket, s⟩ :: rest =>
    match subscript? t.lexeme with
    | some segment =>
      (segments (span.join s) rest).map fun (more, whole) => (segment :: more, whole)
    | none =>
      (.error (.expected "a non-negative integer index or string key" t.kind),
        t :: ⟨.rightBracket, s⟩ :: rest)
  | ⟨.leftBracket, _⟩ :: t :: rest =>
    match subscript? t.lexeme with
    | some _ => (.error (.expected (Token.Kind.describe .rightBracket) (headKind rest)), rest)
    | none => (.error (.expected "a non-negative integer index or string key" t.kind), t :: rest)
  | [⟨.leftBracket, _⟩] =>
    (.error (.expected "a non-negative integer index or string key" .endOfTag), [])
  | ts => (.ok ([], span), ts)

/-- Reads `literal | identifier segments`. -/
def primary : List Token → Outcome Primary
  | ⟨.number n, s⟩ :: rest => (.ok (.literal (.number n) s), rest)
  | ⟨.string text, s⟩ :: rest => (.ok (.literal (.string text) s), rest)
  | ⟨.boolean b, s⟩ :: rest => (.ok (.literal (.boolean b) s), rest)
  | ⟨.nil, s⟩ :: rest => (.ok (.literal .nil s), rest)
  | ⟨.identifier name, s⟩ :: rest =>
    (segments s rest).map fun (more, whole) => .path (.key name :: more) whole
  | ts => (.error (.expected "a value" (headKind ts)), ts)

theorem length_segments (span : Span) (ts : List Token) :
    (segments span ts).2.length ≤ ts.length := by
  fun_induction segments span ts <;> simp_all [Outcome.map] <;> omega

theorem length_primary (ts : List Token) : (primary ts).2.length ≤ ts.length := by
  unfold primary
  split <;> simp [Outcome.map]
  rename_i name s rest
  have := length_segments s rest
  omega

set_option linter.unusedVariables false in
/-- Arguments with commas between them, at least one. -/
def arguments (ts : List Token) : Outcome (List Primary) :=
  match h : primary ts with
  | (.error f, rest) => (.error f, rest)
  | (.ok arg, ⟨.comma, _⟩ :: rest) => (arguments rest).map (arg :: ·)
  | (.ok arg, rest) => (.ok [arg], rest)
termination_by ts.length
decreasing_by
  have := length_primary ts
  rw [h] at this
  simp only [List.length_cons] at this
  omega

theorem length_arguments (ts : List Token) : (arguments ts).2.length ≤ ts.length := by
  fun_induction arguments ts with
  | case1 ts f rest h =>
    have := length_primary ts
    rw [h] at this
    exact this
  | case2 ts arg s rest h ih =>
    have := length_primary ts
    rw [h] at this
    simp only [List.length_cons, Outcome.map] at this ⊢
    omega
  | case3 ts arg rest hcomma h =>
    have := length_primary ts
    rw [h] at this
    exact this

/-- Reads `(':' primary (',' primary)*)?`; without a colon there are no arguments. -/
def callArguments : List Token → Outcome (List Primary)
  | ⟨.colon, _⟩ :: rest => arguments rest
  | ts => (.ok [], ts)

theorem length_callArguments (ts : List Token) : (callArguments ts).2.length ≤ ts.length := by
  unfold callArguments
  split
  · rename_i rest
    have := length_arguments rest
    simp only [List.length_cons]
    omega
  · simp

set_option linter.unusedVariables false in
def calls (ts : List Token) : Outcome (List FilterCall) :=
  match ts with
  | ⟨.pipe, _⟩ :: ⟨.identifier name, s⟩ :: rest =>
    match hargs : callArguments rest with
    | (.error f, after) => (.error f, after)
    | (.ok args, after) => (calls after).map (⟨name, s, args⟩ :: ·)
  | ⟨.pipe, _⟩ :: rest => (.error (.expected "filter name after '|'" (headKind rest)), rest)
  | ts => (.ok [], ts)
termination_by ts.length
decreasing_by
  have := length_callArguments rest
  rw [hargs] at this
  simp only [List.length_cons] at this ⊢
  omega

/-- Reads `primary ('|' identifier callArguments)*`. -/
def filtered (ts : List Token) : Outcome Filtered :=
  match primary ts with
  | (.error f, rest) => (.error f, rest)
  | (.ok base, rest) => (calls rest).map (⟨base, ·⟩)

def comparison? : List Token → Option CompareOp
  | ⟨.comparison op, _⟩ :: _ => some op
  | _ => none

/-- Reads `filtered (comparison filtered)?`. -/
def condition (ts : List Token) : Outcome Condition :=
  match filtered ts with
  | (.error f, rest) => (.error f, rest)
  | (.ok left, ⟨.comparison op, _⟩ :: rest) =>
    match filtered rest with
    | (.error f, rest) => (.error f, rest)
    | (.ok right, rest) =>
      if (comparison? rest).isSome then (.error .secondComparison, rest)
      else (.ok (.compares op left right), rest)
  | (.ok left, rest) => (.ok (.holds left), rest)

end Grammar

end TextTemplate
