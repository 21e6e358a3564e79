import TextTemplate.Proofs.Render.Dependence

namespace TextTemplate

open Outcome (Related)

/-- `x` becomes `y`, every other name stays. -/
def renamed (x y name : String) : String :=
  if name = x then y else name

section

variable {x y a b : String}

@[simp] theorem renamed_self (x y : String) : renamed x y x = y := if_pos rfl

theorem renamed_of_ne (y : String) (h : a ≠ x) : renamed x y a = a := if_neg h

theorem renamed_ne (a : String) (hxy : x ≠ y) : renamed x y a ≠ x := by
  by_cases ha : a = x
  · rw [ha, renamed_self]
    exact hxy.symm
  · rwa [renamed_of_ne y ha]

theorem renamed_inj (ha : a ≠ y) (hb : b ≠ y) : renamed x y a = renamed x y b ↔ a = b := by
  unfold renamed
  grind

end

mutual

/-- Renames paths that start from `x` and assignments to `x`. The body of an inner loop over `x` stays as it
is, since `x` means another variable there. -/
def Node.rename (x y : String) : Node → Node
  | .text content => .text content
  | .output e => .output (e.rename (renamed x y))
  | .conditional chain => .conditional (chain.rename x y)
  | .loop name source body =>
    .loop name (source.rename (renamed x y)) (if name = x then body else Node.renameAll x y body)
  | .assign name e => .assign (renamed x y name) (e.rename (renamed x y))

def Node.renameAll (x y : String) : List Node → List Node
  | [] => []
  | node :: rest => node.rename x y :: Node.renameAll x y rest

def Chain.rename (x y : String) : Chain → Chain
  | .stop => .stop
  | .otherwise body => .otherwise (Node.renameAll x y body)
  | .test condition body rest =>
    .test (condition.rename (renamed x y)) (Node.renameAll x y body) (rest.rename x y)

end

mutual

/-- Only an inner loop over `x` binds `x` after the renaming, and not for good. -/
theorem Node.not_mem_assigned_rename {x y : String} (hxy : x ≠ y) (node : Node) :
    x ∉ (node.rename x y).assigned := by
  cases node with
  | text | output => exact List.not_mem_nil
  | conditional chain => exact chain.not_mem_assigned_rename hxy
  | assign name e => exact fun h => renamed_ne name hxy (List.mem_singleton.mp h).symm
  | loop name source body =>
    intro h
    obtain ⟨hmem, hne⟩ := List.mem_filter.mp h
    have hname : name ≠ x := fun he => by simp [he] at hne
    rw [if_neg hname] at hmem
    exact Node.not_mem_assignedAll_rename hxy body hmem

theorem Node.not_mem_assignedAll_rename {x y : String} (hxy : x ≠ y) (nodes : List Node) :
    x ∉ Node.assignedAll (Node.renameAll x y nodes) := by
  cases nodes with
  | nil => exact List.not_mem_nil
  | cons node rest =>
    rw [Node.renameAll, Node.assignedAll, List.mem_append, not_or]
    exact ⟨node.not_mem_assigned_rename hxy, Node.not_mem_assignedAll_rename hxy rest⟩

theorem Chain.not_mem_assigned_rename {x y : String} (hxy : x ≠ y) (chain : Chain) :
    x ∉ (chain.rename x y).assigned := by
  cases chain with
  | stop => exact List.not_mem_nil
  | otherwise body => exact Node.not_mem_assignedAll_rename hxy body
  | test condition body rest =>
    rw [Chain.rename, Chain.assigned, List.mem_append, not_or]
    exact ⟨Node.not_mem_assignedAll_rename hxy body, rest.not_mem_assigned_rename hxy⟩

end

/-- In an inner loop over a third name they correspond as outside. -/
theorem Enters.over_other {x y name : String} (hname : name ≠ x) (hy : name ≠ y) :
    Enters (renamed x y) {y}ᶜ name name (renamed x y) {y}ᶜ where
  loopVariable n _ h := by rw [h, renamed_of_ne y hname]
  other n hn hne := by
    refine ⟨hn, rfl, ?_⟩
    rw [← renamed_of_ne y hname, Ne, renamed_inj hn hy]
    exact hne
  unhidden _ hn _ _ := ⟨hn, rfl⟩

/-- In an inner loop over `x` names correspond to themselves again. -/
theorem Enters.over_same (x y : String) : Enters (renamed x y) {y}ᶜ x x id {y}ᶜ where
  loopVariable _ _ h := h
  other _ hn hne := ⟨hn, (renamed_of_ne y hne).symm, hne⟩
  unhidden _ hn hne _ := ⟨hn, (renamed_of_ne y hne).symm⟩

/-- In the loop whose variable is renamed only the variable corresponds to another name. -/
theorem Enters.over_renamed (x y : String) : Enters id Set.univ x y (renamed x y) {y}ᶜ where
  loopVariable n _ h := by rw [h, renamed_self]
  other n hn hne := ⟨trivial, renamed_of_ne y hne, (renamed_of_ne y hne).symm ▸ hn⟩
  unhidden n _ hne hn := ⟨hn, renamed_of_ne y hne⟩

theorem Filtered.within_of_not_mem_roots (r : Registry) {e : Filtered} {y : String} (h : y ∉ e.roots) :
    e.Within {y}ᶜ r r :=
  ⟨fun _ hname => ne_of_mem_of_not_mem hname h, fun _ _ => rfl⟩

theorem Filtered.within_univ (r : Registry) (e : Filtered) : e.Within Set.univ r r :=
  ⟨fun _ _ => trivial, fun _ _ => rfl⟩

section

variable {r : Registry} {x y : String}

theorem RenderError.sameKind_rename (f : String → String) (e : RenderError) : e.SameKind (e.rename f) :=
  (e.kind_rename f).symm

theorem RenderError.SameKind.refl (e : RenderError) : e.SameKind e := rfl

mutual

theorem Node.alike_rename (hxy : x ≠ y) (node : Node) (hroots : ∀ e ∈ node.expressions, y ∉ e.roots)
    (hy : y ∉ node.bound) : Node.Alike RenderError.SameKind r r (renamed x y) {y}ᶜ node (node.rename x y) := by
  have hexpression (e : Filtered) (he : e ∈ node.expressions) : AlikeValues RenderError.SameKind
      (renamed x y) {y}ᶜ (e.value r) ((e.rename (renamed x y)).value r) :=
    (Filtered.within_of_not_mem_roots r (hroots e he)).alike_rename (RenderError.sameKind_rename _)
  cases node with
  | text content => exact .text content
  | output e => exact .output (hexpression e List.mem_cons_self)
  | conditional chain => exact .conditional (chain.alike_rename hxy hroots hy)
  | assign name e =>
    refine .assign (hexpression e List.mem_cons_self) ?_
    intro n hn
    exact (renamed_inj hn fun h => hy (List.mem_singleton.mpr h.symm)).symm
  | loop name source body =>
    rw [Node.bound, List.mem_cons, not_or] at hy
    have hbody (e : Filtered) (he : e ∈ Node.expressionsAll body) : y ∉ e.roots :=
      hroots e (List.mem_cons_of_mem source he)
    have hsource := hexpression source List.mem_cons_self
    rw [Node.rename]
    by_cases hname : name = x
    -- The inner loop hides `x` on the left only; on the right its counterpart `y` is not bound in the body.
    · subst hname
      rw [if_pos rfl]
      have hkept : y ∉ Node.assignedAll body := fun h => hy.2 (Node.mem_boundAll_of_mem_assignedAll body h)
      refine .loop id {y}ᶜ hsource (Node.allAlike_self RenderError.SameKind.refl body fun e he =>
        Filtered.within_of_not_mem_roots r (hbody e he)) (.over_same name y) ?_ ?_
      · intro n hn hne h
        exact absurd h (renamed_ne n hxy)
      · intro _ _
        rwa [renamed_self]
    · rw [if_neg hname]
      refine .loop (renamed x y) {y}ᶜ hsource (Node.allAlike_rename hxy body hbody hy.2)
        (.over_other hname (Ne.symm hy.1)) ?_ ?_
      · intro n hn hne h
        rw [← renamed_of_ne y hname, renamed_inj hn (Ne.symm hy.1)] at h
        exact absurd h hne
      · exact fun _ h => absurd (renamed_of_ne y hname) h

theorem Node.allAlike_rename (hxy : x ≠ y) (nodes : List Node)
    (hroots : ∀ e ∈ Node.expressionsAll nodes, y ∉ e.roots) (hy : y ∉ Node.boundAll nodes) :
    Node.AllAlike RenderError.SameKind r r (renamed x y) {y}ᶜ nodes (Node.renameAll x y nodes) := by
  cases nodes with
  | nil => exact .nil
  | cons node rest =>
    rw [Node.boundAll, List.mem_append, not_or] at hy
    exact .cons (node.alike_rename hxy (fun e he => hroots e (List.mem_append_left _ he)) hy.1)
      (Node.allAlike_rename hxy rest (fun e he => hroots e (List.mem_append_right _ he)) hy.2)

theorem Chain.alike_rename (hxy : x ≠ y) (chain : Chain) (hroots : ∀ e ∈ chain.expressions, y ∉ e.roots)
    (hy : y ∉ chain.bound) :
    Chain.Alike RenderError.SameKind r r (renamed x y) {y}ᶜ chain (chain.rename x y) := by
  cases chain with
  | stop => exact .stop
  | otherwise body => exact .otherwise (Node.allAlike_rename hxy body hroots hy)
  | test condition body rest =>
    rw [Chain.bound, List.mem_append, not_or] at hy
    refine .test (condition.alike_rename ?_ (RenderError.sameKind_rename _)) ?_ ?_
    · exact fun e he => Filtered.within_of_not_mem_roots r (hroots e (List.mem_append_left _ he))
    · exact Node.allAlike_rename hxy body
        (fun e he => hroots e (List.mem_append_right _ (List.mem_append_left _ he))) hy.1
    · exact rest.alike_rename hxy
        (fun e he => hroots e (List.mem_append_right _ (List.mem_append_right _ he))) hy.2

end

end

/-- A loop is alike to the one over a name that does not occur in it. -/
theorem Node.alike_rename_loop {r : Registry} {x y : String} (source : Filtered) {body : List Node}
    (hxy : x ≠ y) (hroots : y ∉ Node.rootsAll body) (hbound : y ∉ Node.boundAll body) :
    Node.Alike RenderError.SameKind r r id Set.univ (.loop x source body)
      (.loop y source (Node.renameAll x y body)) := by
  have hbody : ∀ e ∈ Node.expressionsAll body, y ∉ e.roots :=
    fun e he h => hroots (List.mem_flatMap.mpr ⟨e, he, h⟩)
  refine .loop (renamed x y) {y}ᶜ ((source.within_univ r).alike_self RenderError.SameKind.refl)
    (Node.allAlike_rename hxy body hbody hbound) (.over_renamed x y) ?_ ?_
  -- Outside both names go as themselves: the old body leaves `y` alone and the renamed one leaves `x` alone.
  · rintro n - - rfl h
    exact hbound (Node.mem_boundAll_of_mem_assignedAll body h)
  · intro _ _
    exact Node.not_mem_assignedAll_rename hxy body

/-- A place among nodes, at any depth, where other nodes can stand. -/
inductive Site where
  | whole
  | between (before : List Node) (site : Site) (after : List Node)
  | loop (name : String) (source : Filtered) (site : Site)
  | branch (earlier : List (Condition × List Node)) (condition : Condition) (site : Site) (rest : Chain)
  | otherwise (earlier : List (Condition × List Node)) (site : Site)

namespace Site

def fill : Site → List Node → List Node
  | whole, nodes => nodes
  | between before site after, nodes => before ++ (site.fill nodes ++ after)
  | loop name source site, nodes => [.loop name source (site.fill nodes)]
  | branch earlier condition site rest, nodes =>
    [.conditional (Chain.ofBranches earlier (.test condition (site.fill nodes) rest))]
  | otherwise earlier site, nodes =>
    [.conditional (Chain.ofBranches earlier (.otherwise (site.fill nodes)))]

end Site

section

variable {E : RenderError → RenderError → Prop} {r : Registry} {f : String → String} {S : Set String}

theorem Node.AllAlike.append {r' : Registry} {as bs as' bs' : List Node} (ha : Node.AllAlike E r r' f S as as')
    (hb : Node.AllAlike E r r' f S bs bs') : Node.AllAlike E r r' f S (as ++ bs) (as' ++ bs') := by
  induction as generalizing as' with
  | nil =>
    cases ha
    exact hb
  | cons a as ih =>
    cases ha with
    | cons h hrest => exact .cons h (ih hrest)

theorem Chain.Alike.ofBranches (hE : ∀ e, E e e) (earlier : List (Condition × List Node)) {last last' : Chain}
    (h : Chain.Alike E r r id Set.univ last last') :
    Chain.Alike E r r id Set.univ (Chain.ofBranches earlier last) (Chain.ofBranches earlier last') := by
  induction earlier with
  | nil => exact h
  | cons branch earlier ih =>
    obtain ⟨condition, body⟩ := branch
    exact .test (condition.alike_self (fun e _ => e.within_univ r) hE)
      (Node.allAlike_self hE body fun e _ => e.within_univ r) ih

/-- What is alike stays alike at every site. -/
theorem Site.alike_fill (hE : ∀ e, E e e) (site : Site) {nodes nodes' : List Node}
    (h : Node.AllAlike E r r id Set.univ nodes nodes') :
    Node.AllAlike E r r id Set.univ (site.fill nodes) (site.fill nodes') := by
  have hself (body : List Node) : Node.AllAlike E r r id Set.univ body body :=
    Node.allAlike_self hE body fun e _ => e.within_univ r
  induction site with
  | whole => exact h
  | between before site after ih => exact (hself before).append (ih.append (hself after))
  | loop name source site ih =>
    have henters : Enters id Set.univ name name id Set.univ := by
      simpa using Enters.same Set.univ name
    exact .cons (.loop id _ ((source.within_univ r).alike_self hE) ih henters
      (fun _ _ hne he => absurd he hne) fun _ hne => absurd rfl hne) .nil
  | branch earlier condition site rest ih =>
    have hrest : Chain.Alike E r r id Set.univ rest rest :=
      rest.alike_self hE fun e _ => e.within_univ r
    refine .cons (.conditional (.ofBranches hE earlier (.test ?_ ih hrest))) .nil
    exact condition.alike_self (fun e _ => e.within_univ r) hE
  | otherwise earlier site ih =>
    exact .cons (.conditional (.ofBranches hE earlier (.otherwise ih))) .nil

end

/-- The variable of a loop anywhere in a template may be renamed to a name that does not occur in the loop: the
template renders to the same text, or fails with an error of the same kind. -/
theorem Template.render_rename_loop (site : Site) {x y : String} (source : Filtered) {body : List Node}
    (hxy : x ≠ y) (hroots : y ∉ Node.rootsAll body) (hbound : y ∉ Node.boundAll body) (r : Registry)
    (c : Context) :
    Related RenderError.SameKind Eq
      (Template.render ⟨site.fill [.loop x source body]⟩ r c)
      (Template.render ⟨site.fill [.loop y source (Node.renameAll x y body)]⟩ r c) := by
  have halike : Node.AllAlike RenderError.SameKind r r id Set.univ (site.fill [.loop x source body])
      (site.fill [.loop y source (Node.renameAll x y body)]) :=
    site.alike_fill RenderError.SameKind.refl (.cons (Node.alike_rename_loop source hxy hroots hbound) .nil)
  have hnames : Names.Agree id Set.univ (Draft.empty.scope.over c) (Draft.empty.scope.over c) :=
    fun _ _ => rfl
  exact (halike.related_render (.start hnames)).bind fun a a' _ _ ha => .ok ha.output_eq

/-- An inner loop over `x` stays as it is, what the body assigns to `x` goes to `y`, and behind the loop `x` is the
caller's again. -/
theorem Template.render_rename_loop_reused_name :
    let source := Filtered.ofName "rows"
    let body : List Node := [.loop "x" (.ofName "x") [.output (.ofName "x")],
      .assign "x" (.ofName "mark"), .output (.ofName "x")]
    let site := Site.between [] .whole [.output (.ofName "x")]
    let context : Context := ⟨[("rows", .array [.array [.string "a"], .array [.string "b", .string "c"]]),
      ("mark", .string "!"), ("x", .string "?")]⟩
    "x" ≠ "y" ∧ "y" ∉ Node.rootsAll body ∧ "y" ∉ Node.boundAll body ∧
      Template.render ⟨site.fill [.loop "x" source body]⟩ Registry.empty context = .ok "a!bc!?" ∧
      Related RenderError.SameKind Eq
        (Template.render ⟨site.fill [.loop "x" source body]⟩ Registry.empty context)
        (Template.render ⟨site.fill [.loop "y" source (Node.renameAll "x" "y" body)]⟩ Registry.empty
          context) := by
  refine ⟨by decide, by decide, by decide, rfl, ?_⟩
  exact Template.render_rename_loop _ _ (by decide) (by decide) (by decide) _ _

end TextTemplate
