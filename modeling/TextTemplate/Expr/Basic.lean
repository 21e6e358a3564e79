import TextTemplate.Expr.Token

namespace TextTemplate

inductive Literal where
  | nil
  | boolean (b : Bool)
  | number (n : Number)
  | string (s : String)
deriving DecidableEq

/-- One step of a path: a field of an object or a place in an array. -/
inductive Segment where
  | key (name : String)
  | index (n : Nat)
deriving DecidableEq, Repr

inductive Primary where
  | literal (value : Literal) (span : Span)
  | path (segments : List Segment) (span : Span)
deriving DecidableEq

namespace Primary

def span : Primary → Span
  | literal _ span => span
  | path _ span => span

end Primary

structure FilterCall where
  name : String
  nameSpan : Span
  args : List Primary
deriving DecidableEq

namespace FilterCall

def span (call : FilterCall) : Span :=
  match call.args.getLast? with
  | some last => call.nameSpan.join last.span
  | none => call.nameSpan

end FilterCall

/-- A literal or path with the filters that it is sent through. No comparison and no other expression with filters
stands in it. -/
structure Filtered where
  base : Primary
  calls : List FilterCall
deriving DecidableEq

namespace Filtered

def span (e : Filtered) : Span :=
  match e.calls.getLast? with
  | some last => e.base.span.join last.span
  | none => e.base.span

end Filtered

/-- What an `if` tests: one expression, or two that are compared. Comparisons stand nowhere else. -/
inductive Condition where
  | holds (e : Filtered)
  | compares (op : CompareOp) (left right : Filtered)
deriving DecidableEq

namespace Condition

def span : Condition → Span
  | holds e => e.span
  | compares _ left right => left.span.join right.span

end Condition

end TextTemplate
