import TextTemplate.Render.Expression
import TextTemplate.Template.Basic

namespace TextTemplate

/-- What a render has written and bound so far. -/
structure Draft where
  scope : Scope
  output : String

namespace Draft

def empty : Draft := ⟨Scope.empty, ""⟩

def write (d : Draft) (s : String) : Draft :=
  ⟨d.scope, d.output ++ s⟩

def bind (d : Draft) (name : String) (v : Value) : Draft :=
  ⟨d.scope.set name v, d.output⟩

def restore (d : Draft) (name : String) (previous : Option Value) : Draft :=
  ⟨d.scope.restore name previous, d.output⟩

end Draft

mutual

/-- Renders one node. A loop runs over arrays only, binds its name to each element in turn and gives it back
at the end the binding that it had before. -/
def Node.render (registry : Registry) (context : Context) : Node → Draft → Except RenderError Draft
  | .text content, d => .ok (d.write content)
  | .output e, d => do
    let v ← e.value registry (d.scope.over context)
    return d.write v.text
  | .conditional chain, d => chain.render registry context d
  | .loop name source body, d => do
    let v ← source.value registry (d.scope.over context)
    match v with
    | .array items =>
      let previous := d.scope.get? name
      let d ← items.foldlM
        (fun d item => Node.renderAll registry context body (d.bind name item)) d
      return d.restore name previous
    | _ => return d
  | .assign name e, d => do
    let v ← e.value registry (d.scope.over context)
    return d.bind name v

def Node.renderAll (registry : Registry) (context : Context) :
    List Node → Draft → Except RenderError Draft
  | [], d => .ok d
  | node :: rest, d => do
    let d ← node.render registry context d
    Node.renderAll registry context rest d

/-- Renders the first branch whose test holds; tests behind it are not evaluated. -/
def Chain.render (registry : Registry) (context : Context) : Chain → Draft → Except RenderError Draft
  | .stop, d => .ok d
  | .otherwise body, d => Node.renderAll registry context body d
  | .test condition body rest, d => do
    let v ← condition.value registry (d.scope.over context)
    if v.isTruthy then Node.renderAll registry context body d
    else rest.render registry context d

end

theorem Node.renderAll_append (registry : Registry) (context : Context) (as bs : List Node) (d : Draft) :
    Node.renderAll registry context (as ++ bs) d =
      Node.renderAll registry context as d >>= Node.renderAll registry context bs := by
  induction as generalizing d with
  | nil => rw [List.nil_append, Node.renderAll]; rfl
  | cons node rest ih =>
    rw [List.cons_append, Node.renderAll, Node.renderAll]
    cases h : node.render registry context d with
    | error e => rfl
    | ok after => exact ih after

theorem Node.renderAll_singleton (registry : Registry) (context : Context) (node : Node) (d : Draft) :
    Node.renderAll registry context [node] d = node.render registry context d := by
  rw [Node.renderAll]
  cases node.render registry context d with
  | error e => rfl
  | ok after => simp [bind, Except.bind, Node.renderAll]

theorem Node.render_output (registry : Registry) (context : Context) (e : Filtered) (d : Draft) :
    (Node.output e).render registry context d =
      (e.value registry (d.scope.over context)).map fun v => d.write v.text := by
  rw [Node.render]
  cases e.value registry (d.scope.over context) <;> rfl

theorem Node.render_assign (registry : Registry) (context : Context) (name : String) (e : Filtered) (d : Draft) :
    (Node.assign name e).render registry context d =
      (e.value registry (d.scope.over context)).map fun v => d.bind name v := by
  rw [Node.render]
  cases e.value registry (d.scope.over context) <;> rfl

def Template.render (t : Template) (registry : Registry) (context : Context) :
    Except RenderError String := do
  let d ← Node.renderAll registry context t.nodes Draft.empty
  return d.output

end TextTemplate
