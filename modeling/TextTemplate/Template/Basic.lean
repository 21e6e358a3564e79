import TextTemplate.Expr.Basic

namespace TextTemplate

mutual

inductive Node where
  | text (content : String)
  | output (e : Filtered)
  | conditional (chain : Chain)
  | loop (name : String) (source : Filtered) (body : List Node)
  | assign (name : String) (value : Filtered)

/-- The branches of an `if` block: tests in order, at the end perhaps an `else`. -/
inductive Chain where
  | stop
  | otherwise (body : List Node)
  | test (condition : Condition) (body : List Node) (rest : Chain)

end

namespace Chain

/-- Tested branches in front of a chain. -/
def ofBranches (branches : List (Condition × List Node)) (last : Chain) : Chain :=
  branches.foldr (fun (condition, body) rest => .test condition body rest) last

variable {done : List (Condition × List Node)}

theorem ofBranches_cons (condition : Condition) (body : List Node) (last : Chain) :
    ofBranches ((condition, body) :: done) last = .test condition body (ofBranches done last) := rfl

theorem ofBranches_concat (condition : Condition) (body : List Node) (last : Chain) :
    ofBranches (done ++ [(condition, body)]) last = ofBranches done (.test condition body last) := by
  induction done with
  | nil => rfl
  | cons branch rest ih => rw [List.cons_append, ofBranches_cons, ih, ofBranches_cons]

end Chain

structure Template where
  nodes : List Node

end TextTemplate
