import TextTemplate.Proofs.Render.Renaming

namespace TextTemplate

/-- The variables of the loops that a site stands in. -/
def Site.loopVariables : Site → List String
  | whole => []
  | between _ site _ => site.loopVariables
  | loop name _ site => name :: site.loopVariables
  | branch _ _ site _ => site.loopVariables
  | otherwise _ site => site.loopVariables

/-- Somewhere among the nodes, at any depth, stands an assignment to `name` outside of every loop over `name`. -/
def Node.AssignsUncaptured (name : String) (nodes : List Node) : Prop :=
  ∃ (site : Site) (value : Filtered), site.fill [.assign name value] = nodes ∧ name ∉ site.loopVariables

theorem Node.assignedAll_append (as bs : List Node) :
    Node.assignedAll (as ++ bs) = Node.assignedAll as ++ Node.assignedAll bs := by
  induction as with
  | nil => rfl
  | cons node rest ih => rw [List.cons_append, assignedAll, assignedAll, ih, List.append_assoc]

theorem Chain.mem_assigned_ofBranches {name : String} (earlier : List (Condition × List Node)) {last : Chain}
    (h : name ∈ last.assigned) : name ∈ (ofBranches earlier last).assigned := by
  induction earlier with
  | nil => exact h
  | cons branch earlier ih => exact List.mem_append_right _ ih

/-- What the nodes at a site may bind for good, all nodes together may, but for the variables of the loops around
the site. -/
theorem Site.mem_assignedAll_fill {name : String} (site : Site) (hname : name ∉ site.loopVariables)
    {nodes : List Node} (h : name ∈ Node.assignedAll nodes) : name ∈ Node.assignedAll (site.fill nodes) := by
  induction site with
  | whole => exact h
  | between before site after ih =>
    rw [fill, Node.assignedAll_append, Node.assignedAll_append]
    exact List.mem_append_right _ (List.mem_append_left _ (ih hname))
  | loop x source site ih =>
    rw [loopVariables, List.mem_cons, not_or] at hname
    refine List.mem_append_left _ (List.mem_filter.mpr ⟨ih hname.2, ?_⟩)
    simpa using hname.1
  | branch earlier condition site rest ih =>
    exact List.mem_append_left _ (Chain.mem_assigned_ofBranches earlier (List.mem_append_left _ (ih hname)))
  | otherwise earlier site ih =>
    exact List.mem_append_left _ (Chain.mem_assigned_ofBranches earlier (ih hname))

mutual

theorem Node.assignsUncaptured_of_mem_assigned {name : String} (node : Node) (h : name ∈ node.assigned) :
    Node.AssignsUncaptured name [node] := by
  cases node with
  | text | output => exact absurd h List.not_mem_nil
  | assign target value =>
    rw [List.mem_singleton.mp h]
    exact ⟨.whole, value, rfl, List.not_mem_nil⟩
  | conditional chain => exact chain.assignsUncaptured_of_mem_assigned h []
  | loop x source body =>
    obtain ⟨hbody, hx⟩ := List.mem_filter.mp h
    obtain ⟨site, value, hsite, hname⟩ := Node.assignsUncaptured_of_mem_assignedAll body hbody
    refine ⟨.loop x source site, value, by rw [Site.fill, hsite], ?_⟩
    rw [Site.loopVariables, List.mem_cons, not_or]
    exact ⟨by simpa using hx, hname⟩

theorem Node.assignsUncaptured_of_mem_assignedAll {name : String} (nodes : List Node)
    (h : name ∈ Node.assignedAll nodes) : Node.AssignsUncaptured name nodes := by
  cases nodes with
  | nil => exact absurd h List.not_mem_nil
  | cons node rest =>
    rcases List.mem_append.mp h with h | h
    · obtain ⟨site, value, hsite, hname⟩ := node.assignsUncaptured_of_mem_assigned h
      exact ⟨.between [] site rest, value, by rw [Site.fill, hsite]; rfl, hname⟩
    · obtain ⟨site, value, hsite, hname⟩ := Node.assignsUncaptured_of_mem_assignedAll rest h
      exact ⟨.between [node] site [], value, by rw [Site.fill, hsite, List.append_nil]; rfl, hname⟩

theorem Chain.assignsUncaptured_of_mem_assigned {name : String} (chain : Chain) (h : name ∈ chain.assigned)
    (earlier : List (Condition × List Node)) :
    Node.AssignsUncaptured name [.conditional (Chain.ofBranches earlier chain)] := by
  cases chain with
  | stop => exact absurd h List.not_mem_nil
  | otherwise body =>
    obtain ⟨site, value, hsite, hname⟩ := Node.assignsUncaptured_of_mem_assignedAll body h
    exact ⟨.otherwise earlier site, value, by rw [Site.fill, hsite], hname⟩
  | test condition body rest =>
    rcases List.mem_append.mp h with h | h
    · obtain ⟨site, value, hsite, hname⟩ := Node.assignsUncaptured_of_mem_assignedAll body h
      exact ⟨.branch earlier condition site rest, value, by rw [Site.fill, hsite], hname⟩
    · rw [← Chain.ofBranches_concat]
      exact rest.assignsUncaptured_of_mem_assigned h _

end

namespace Node

theorem mem_assignedAll_iff {name : String} {nodes : List Node} :
    name ∈ assignedAll nodes ↔ AssignsUncaptured name nodes := by
  constructor
  · exact assignsUncaptured_of_mem_assignedAll nodes
  · rintro ⟨site, value, rfl, hname⟩
    exact site.mem_assignedAll_fill hname (List.mem_singleton_self name)

/-- When a render succeeds, every name to which the nodes have no uncaptured assignment is bound in the scope as it
was before, or unbound as it was before, however deep loops and blocks are nested and whatever the loops run over. -/
theorem renderAll_keeps_unassigned {registry : Registry} {context : Context} {nodes : List Node} {d a : Draft}
    (h : renderAll registry context nodes d = .ok a) {name : String} (hname : ¬ AssignsUncaptured name nodes) :
    a.scope.get? name = d.scope.get? name := by
  rw [← mem_assignedAll_iff] at hname
  exact get?_of_renderAll nodes h hname

/-- Two loops over one name, the inner one over an element of the outer one and with an assignment to that name in a
branch, and a loop over what is no array. -/
theorem renderAll_keeps_unassigned_nested :
    let inner : List Node := [.conditional (.test (.holds (.ofName "x")) [.assign "x" (.ofName "mark")] .stop),
      .output (.ofName "x")]
    let nodes : List Node := [.loop "x" (.ofName "rows") [.loop "x" (.ofName "x") inner, .assign "x" (.ofName "y")],
      .loop "mark" (.ofName "mark") [.assign "rows" (.ofName "x")], .assign "y" (.ofName "x")]
    let context : Context := ⟨[("rows", .array [.array [.string "a", .nil], .nil]), ("mark", .string "!")]⟩
    let d : Draft := ⟨⟨[("x", .string "before")]⟩, ""⟩
    ¬ AssignsUncaptured "x" nodes ∧ ∃ a, renderAll Registry.empty context nodes d = .ok a ∧ a.output = "!" ∧
      a.scope.get? "y" = some (.string "before") ∧ a.scope.get? "x" = d.scope.get? "x" := by
  intro inner nodes context d
  have hx : ¬ AssignsUncaptured "x" nodes := by
    rw [← mem_assignedAll_iff]
    decide
  have hrender : renderAll Registry.empty context nodes d =
      .ok ⟨⟨[("x", .string "before"), ("y", .string "before")]⟩, "!"⟩ := rfl
  exact ⟨hx, _, hrender, rfl, rfl, renderAll_keeps_unassigned hrender hx⟩

end Node

end TextTemplate
