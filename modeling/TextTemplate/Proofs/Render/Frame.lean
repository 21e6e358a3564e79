import TextTemplate.Proofs.Outcome
import TextTemplate.Render.Basic

namespace TextTemplate

open Outcome (bind_eq_ok_iff foldlM_induction)

namespace Draft

@[simp] theorem scope_write (d : Draft) (s : String) : (d.write s).scope = d.scope := rfl

@[simp] theorem output_write (d : Draft) (s : String) : (d.write s).output = d.output ++ s := rfl

@[simp] theorem scope_bind (d : Draft) (name : String) (v : Value) :
    (d.bind name v).scope = d.scope.set name v := rfl

@[simp] theorem output_bind (d : Draft) (name : String) (v : Value) : (d.bind name v).output = d.output := rfl

@[simp] theorem scope_restore (d : Draft) (name : String) (previous : Option Value) :
    (d.restore name previous).scope = d.scope.restore name previous := rfl

@[simp] theorem output_restore (d : Draft) (name : String) (previous : Option Value) :
    (d.restore name previous).output = d.output := rfl

end Draft

mutual

/-- The names that a node may bind for good. -/
def Node.assigned : Node → List String
  | .text _ | .output _ => []
  | .conditional chain => chain.assigned
  | .loop name _ body => (Node.assignedAll body).filter (· ≠ name)
  | .assign name _ => [name]

def Node.assignedAll : List Node → List String
  | [] => []
  | node :: rest => node.assigned ++ Node.assignedAll rest

def Chain.assigned : Chain → List String
  | .stop => []
  | .otherwise body => Node.assignedAll body
  | .test _ body rest => Node.assignedAll body ++ rest.assigned

end

mutual

/-- The names that a node binds in any way: the targets of its assignments and the variables of its loops. -/
def Node.bound : Node → List String
  | .text _ | .output _ => []
  | .conditional chain => chain.bound
  | .loop name _ body => name :: Node.boundAll body
  | .assign name _ => [name]

def Node.boundAll : List Node → List String
  | [] => []
  | node :: rest => node.bound ++ Node.boundAll rest

def Chain.bound : Chain → List String
  | .stop => []
  | .otherwise body => Node.boundAll body
  | .test _ body rest => Node.boundAll body ++ rest.bound

end

mutual

theorem Node.mem_bound_of_mem_assigned (node : Node) {name : String} (h : name ∈ node.assigned) :
    name ∈ node.bound := by
  cases node with
  | text | output | assign => exact h
  | conditional chain => exact chain.mem_bound_of_mem_assigned h
  | loop x source body =>
    exact List.mem_cons_of_mem x (Node.mem_boundAll_of_mem_assignedAll body (List.mem_filter.mp h).1)

theorem Node.mem_boundAll_of_mem_assignedAll (nodes : List Node) {name : String}
    (h : name ∈ Node.assignedAll nodes) : name ∈ Node.boundAll nodes := by
  cases nodes with
  | nil => exact h
  | cons node rest =>
    exact List.mem_append.mpr ((List.mem_append.mp h).imp node.mem_bound_of_mem_assigned
      (Node.mem_boundAll_of_mem_assignedAll rest))

theorem Chain.mem_bound_of_mem_assigned (chain : Chain) {name : String} (h : name ∈ chain.assigned) :
    name ∈ chain.bound := by
  cases chain with
  | stop => exact h
  | otherwise body => exact Node.mem_boundAll_of_mem_assignedAll body h
  | test condition body rest =>
    exact List.mem_append.mpr ((List.mem_append.mp h).imp (Node.mem_boundAll_of_mem_assignedAll body)
      rest.mem_bound_of_mem_assigned)

end

variable {registry : Registry} {context : Context}

/-- A loop that succeeds runs its body once for every element of an array, or does nothing. -/
theorem Node.render_loop_eq_ok {name : String} {source : Filtered} {body : List Node} {d a : Draft}
    (h : (Node.loop name source body).render registry context d = .ok a) :
    a = d ∨ ∃ (items : List Value) (e : Draft),
      items.foldlM (fun d item => Node.renderAll registry context body (d.bind name item)) d = .ok e ∧
      a = e.restore name (d.scope.get? name) := by
  rw [Node.render] at h
  obtain ⟨v, -, h⟩ := bind_eq_ok_iff.mp h
  cases v with
  | array items =>
    obtain ⟨e, he, ha⟩ := bind_eq_ok_iff.mp h
    cases ha
    exact .inr ⟨items, e, he, rfl⟩
  | nil | boolean | number | string | date | object =>
    cases h
    exact .inl rfl

mutual

theorem Node.get?_of_render {name : String} (node : Node) {d a : Draft}
    (h : node.render registry context d = .ok a) (hn : name ∉ node.assigned) :
    a.scope.get? name = d.scope.get? name := by
  cases node with
  | text content =>
    cases h
    rfl
  | output e =>
    obtain ⟨v, -, ha⟩ := bind_eq_ok_iff.mp h
    cases ha
    rfl
  | conditional chain => exact chain.get?_of_render h hn
  | assign target e =>
    obtain ⟨v, -, ha⟩ := bind_eq_ok_iff.mp h
    cases ha
    rw [Draft.scope_bind, Scope.get?_set, if_neg fun he => hn (List.mem_singleton.mpr he)]
  | loop x source body =>
    rcases Node.render_loop_eq_ok h with rfl | ⟨items, e, he, rfl⟩
    · rfl
    rw [Draft.scope_restore, Scope.get?_restore]
    by_cases hx : name = x
    · rw [if_pos hx, hx]
    rw [if_neg hx]
    have hbody : name ∉ Node.assignedAll body := fun hm => hn (List.mem_filter.mpr ⟨hm, by simpa using hx⟩)
    refine foldlM_induction (P := fun b => b.scope.get? name = d.scope.get? name) ?_ he rfl
    intro b item c hc hb
    rw [Node.get?_of_renderAll body hc hbody, Draft.scope_bind, Scope.get?_set, if_neg hx, hb]

theorem Node.get?_of_renderAll {name : String} (nodes : List Node) {d a : Draft}
    (h : Node.renderAll registry context nodes d = .ok a) (hn : name ∉ Node.assignedAll nodes) :
    a.scope.get? name = d.scope.get? name := by
  cases nodes with
  | nil =>
    cases h
    rfl
  | cons node rest =>
    obtain ⟨b, hb, hrest⟩ := bind_eq_ok_iff.mp h
    rw [Node.get?_of_renderAll rest hrest fun hm => hn (List.mem_append_right _ hm),
      node.get?_of_render hb fun hm => hn (List.mem_append_left _ hm)]

theorem Chain.get?_of_render {name : String} (chain : Chain) {d a : Draft}
    (h : chain.render registry context d = .ok a) (hn : name ∉ chain.assigned) :
    a.scope.get? name = d.scope.get? name := by
  cases chain with
  | stop =>
    cases h
    rfl
  | otherwise body => exact Node.get?_of_renderAll body h hn
  | test condition body rest =>
    obtain ⟨v, -, h⟩ := bind_eq_ok_iff.mp h
    by_cases hv : v.isTruthy
    · rw [if_pos hv] at h
      exact Node.get?_of_renderAll body h fun hm => hn (List.mem_append_left _ hm)
    · rw [if_neg hv] at h
      exact rest.get?_of_render h fun hm => hn (List.mem_append_right _ hm)

end

end TextTemplate
