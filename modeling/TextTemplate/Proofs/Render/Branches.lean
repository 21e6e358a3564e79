import TextTemplate.Proofs.Render.Names
import TextTemplate.Render.Basic

namespace TextTemplate

/-- An `else` with its body, or the end of a block without one. -/
def Chain.ofElse : Option (List Node) → Chain
  | some body => .otherwise body
  | none => .stop

/-- The `if` block of these branches, in their order, and this `else`. -/
def Node.block (branches : List (Condition × List Node)) (last : Option (List Node)) : Node :=
  .conditional (.ofBranches branches (.ofElse last))

section

variable (registry : Registry) (names : Names)

/-- The tests of all these branches give values that do not count as true. -/
def AllUntrue (branches : List (Condition × List Node)) : Prop :=
  ∀ branch ∈ branches, ∃ v, branch.1.value registry names = .ok v ∧ v.isTruthy = false

/-- What the tests of a block come to: the body behind the first that is true, the error of the first that fails, if the
tests in front of it are untrue, or no body, if all of them are. -/
inductive Decides (branches : List (Condition × List Node)) : Except RenderError (Option (List Node)) → Prop
  | taken {before after : List (Condition × List Node)} {condition : Condition} {body : List Node} {v : Value}
      (hsplit : branches = before ++ (condition, body) :: after) (hbefore : AllUntrue registry names before)
      (hvalue : condition.value registry names = .ok v) (hv : v.isTruthy = true) : Decides branches (.ok (some body))
  | failed {before after : List (Condition × List Node)} {condition : Condition} {body : List Node} {e : RenderError}
      (hsplit : branches = before ++ (condition, body) :: after) (hbefore : AllUntrue registry names before)
      (hvalue : condition.value registry names = .error e) : Decides branches (.error e)
  | untaken (h : AllUntrue registry names branches) : Decides branches (.ok none)

end

section

variable {registry : Registry} {names : Names} {branches before : List (Condition × List Node)}

theorem allUntrue_nil : AllUntrue registry names [] := by
  intro branch hbranch
  cases hbranch

theorem allUntrue_cons {branch : Condition × List Node} {v : Value} (hvalue : branch.1.value registry names = .ok v)
    (hv : v.isTruthy = false) (h : AllUntrue registry names branches) :
    AllUntrue registry names (branch :: branches) := by
  intro other hother
  rcases List.mem_cons.mp hother with rfl | hlater
  · exact ⟨v, hvalue, hv⟩
  · exact h other hlater

/-- Whether tests are untrue does not depend on the bodies behind them. -/
theorem AllUntrue.of_map_fst {before' : List (Condition × List Node)} (h : AllUntrue registry names before)
    (hsame : before.map Prod.fst = before'.map Prod.fst) : AllUntrue registry names before' := by
  intro branch hbranch
  have hmem : branch.1 ∈ before.map Prod.fst := by
    rw [hsame]
    exact List.mem_map_of_mem hbranch
  obtain ⟨other, hother, htest⟩ := List.mem_map.mp hmem
  rw [← htest]
  exact h other hother

/-- The tests of every block come to something. -/
theorem exists_decides (registry : Registry) (names : Names) (branches : List (Condition × List Node)) :
    ∃ decision, Decides registry names branches decision := by
  induction branches with
  | nil => exact ⟨_, .untaken allUntrue_nil⟩
  | cons branch branches ih =>
    have hfirst : branch :: branches = [] ++ (branch.1, branch.2) :: branches := rfl
    cases hvalue : branch.1.value registry names with
    | error e => exact ⟨_, .failed hfirst allUntrue_nil hvalue⟩
    | ok v =>
      cases hv : v.isTruthy with
      | true => exact ⟨_, .taken hfirst allUntrue_nil hvalue hv⟩
      | false =>
        -- What the later branches come to, the block comes to.
        obtain ⟨decision, hdecision⟩ := ih
        cases hdecision with
        | taken hsplit hbefore htrue hw =>
          exact ⟨_, .taken (by rw [hsplit, List.cons_append]) (allUntrue_cons hvalue hv hbefore) htrue hw⟩
        | failed hsplit hbefore herror =>
          exact ⟨_, .failed (by rw [hsplit, List.cons_append]) (allUntrue_cons hvalue hv hbefore) herror⟩
        | untaken h => exact ⟨_, .untaken (allUntrue_cons hvalue hv h)⟩

end

namespace Chain

variable {registry : Registry} {context : Context} {d : Draft} {condition : Condition} {body : List Node}
  {rest last : Chain}

theorem render_test (registry : Registry) (context : Context) (condition : Condition) (body : List Node) (rest : Chain)
    (d : Draft) : (test condition body rest).render registry context d =
      condition.value registry (d.scope.over context) >>= fun v =>
        if v.isTruthy then Node.renderAll registry context body d else rest.render registry context d := by
  rw [render]

theorem render_test_of_true {v : Value} (hvalue : condition.value registry (d.scope.over context) = .ok v)
    (hv : v.isTruthy = true) :
    (test condition body rest).render registry context d = Node.renderAll registry context body d := by
  rw [render_test, hvalue]
  exact if_pos hv

theorem render_test_of_untrue {v : Value} (hvalue : condition.value registry (d.scope.over context) = .ok v)
    (hv : v.isTruthy = false) :
    (test condition body rest).render registry context d = rest.render registry context d := by
  rw [render_test, hvalue]
  exact if_neg (by simp [hv])

theorem render_test_of_error {e : RenderError} (hvalue : condition.value registry (d.scope.over context) = .error e) :
    (test condition body rest).render registry context d = .error e := by
  rw [render_test, hvalue]
  rfl

/-- Branches with untrue tests are passed by. -/
theorem render_ofBranches_append {before : List (Condition × List Node)}
    (h : AllUntrue registry (d.scope.over context) before) (branches : List (Condition × List Node)) :
    (ofBranches (before ++ branches) last).render registry context d =
      (ofBranches branches last).render registry context d := by
  induction before with
  | nil => rfl
  | cons branch before ih =>
    obtain ⟨v, hvalue, hv⟩ := h branch List.mem_cons_self
    have hlater : AllUntrue registry (d.scope.over context) before :=
      fun other hother => h other (List.mem_cons_of_mem branch hother)
    rw [List.cons_append, ofBranches_cons, render_test_of_untrue hvalue hv, ih hlater]

theorem render_ofElse (registry : Registry) (context : Context) (last : Option (List Node)) (d : Draft) :
    (ofElse last).render registry context d = Node.renderAll registry context (last.getD []) d := by
  cases last with
  | some body => rw [ofElse, render, Option.getD_some]
  | none => rw [ofElse, render, Option.getD_none, Node.renderAll]

end Chain

namespace Node

variable {registry : Registry} {context : Context} {d : Draft} {before after : List (Condition × List Node)}
  {condition : Condition} {body : List Node}

theorem render_block_of_true {v : Value} (hbefore : AllUntrue registry (d.scope.over context) before)
    (hvalue : condition.value registry (d.scope.over context) = .ok v) (hv : v.isTruthy = true)
    (last : Option (List Node)) :
    (block (before ++ (condition, body) :: after) last).render registry context d =
      renderAll registry context body d := by
  rw [block, render, Chain.render_ofBranches_append hbefore, Chain.ofBranches_cons, Chain.render_test_of_true hvalue hv]

theorem render_block_of_error {e : RenderError} (hbefore : AllUntrue registry (d.scope.over context) before)
    (hvalue : condition.value registry (d.scope.over context) = .error e) (last : Option (List Node)) :
    (block (before ++ (condition, body) :: after) last).render registry context d = .error e := by
  rw [block, render, Chain.render_ofBranches_append hbefore, Chain.ofBranches_cons, Chain.render_test_of_error hvalue]

theorem render_block_of_untrue {branches : List (Condition × List Node)}
    (h : AllUntrue registry (d.scope.over context) branches) (last : Option (List Node)) :
    (block branches last).render registry context d = renderAll registry context (last.getD []) d := by
  have hpassed : (Chain.ofBranches (branches ++ []) (.ofElse last)).render registry context d =
      (Chain.ofElse last).render registry context d := Chain.render_ofBranches_append h []
  rw [List.append_nil] at hpassed
  rw [block, render, hpassed]
  exact Chain.render_ofElse registry context last d

theorem render_block_cons (registry : Registry) (context : Context) (first : Condition × List Node)
    (rest : List (Condition × List Node)) (last : Option (List Node)) (d : Draft) :
    (block (first :: rest) last).render registry context d =
      (block [first] (some [block rest last])).render registry context d := by
  have hlater : (Chain.otherwise [block rest last]).render registry context d =
      (Chain.ofBranches rest (.ofElse last)).render registry context d := by
    rw [Chain.render, renderAll_singleton, block, render]
  rw [block, block, render, render, Chain.ofBranches_cons, Chain.ofBranches_cons, Chain.render_test, Chain.render_test]
  congr 1
  funext v
  congr 1
  exact hlater.symm

/-- A block is rendered as what its tests come to. -/
theorem render_block_of_decides {branches : List (Condition × List Node)}
    {decision : Except RenderError (Option (List Node))} (h : Decides registry (d.scope.over context) branches decision)
    (last : Option (List Node)) :
    (block branches last).render registry context d =
      decision >>= fun taken => renderAll registry context ((taken.or last).getD []) d := by
  cases h with
  | taken hsplit hbefore hvalue hv =>
    rw [hsplit]
    exact render_block_of_true hbefore hvalue hv last
  | failed hsplit hbefore hvalue =>
    rw [hsplit]
    exact render_block_of_error hbefore hvalue last
  | untaken h => exact render_block_of_untrue h last

/-- A block of two branches or more goes like the block of the first with the block of the others for its `else`, and
only the body of the one branch that is decided for bears on the render. -/
theorem block_nests_and_decides (registry : Registry) (context : Context) (d : Draft) :
    (∀ first second rest last,
      (block (first :: second :: rest) last).render registry context d =
        (block [first] (some [block (second :: rest) last])).render registry context d) ∧
    (∀ branches, ∃ decision, Decides registry (d.scope.over context) branches decision ∧
      ∀ last, (block branches last).render registry context d =
        decision >>= fun taken => renderAll registry context ((taken.or last).getD []) d) ∧
    (∀ before before' condition body after after' last last' v, AllUntrue registry (d.scope.over context) before →
      before.map Prod.fst = before'.map Prod.fst → condition.value registry (d.scope.over context) = .ok v →
      v.isTruthy = true →
      (block (before ++ (condition, body) :: after) last).render registry context d =
        (block (before' ++ (condition, body) :: after') last').render registry context d) ∧
    ∀ before condition body after last e, AllUntrue registry (d.scope.over context) before →
      condition.value registry (d.scope.over context) = .error e →
      (block (before ++ (condition, body) :: after) last).render registry context d = .error e := by
  refine ⟨?_, ?_, ?_, ?_⟩
  · intro first second rest last
    exact render_block_cons registry context first (second :: rest) last d
  · intro branches
    obtain ⟨decision, hdecision⟩ := exists_decides registry (d.scope.over context) branches
    exact ⟨decision, hdecision, render_block_of_decides hdecision⟩
  · intro before before' condition body after after' last last' v hbefore hsame hvalue hv
    have hbefore' : AllUntrue registry (d.scope.over context) before' := hbefore.of_map_fst hsame
    rw [render_block_of_true hbefore hvalue hv, render_block_of_true hbefore' hvalue hv]
  · intro before condition body after last e hbefore hvalue
    exact render_block_of_error hbefore hvalue last

/-- Behind the true test stands one that fails, in front of it a body that fails; and the body that is taken assigns what
the tests read. -/
theorem block_nests_and_decides_taken :
    let failing : Filtered := ⟨.literal .nil ⟨0, 3⟩, [⟨"missing", ⟨6, 13⟩, []⟩]⟩
    let no : Condition := .holds (.ofName "no")
    let yes : Condition := .compares .eq (.ofName "yes") (.ofName "yes")
    let body : List Node := [.assign "yes" (.ofName "no"), .assign "no" (.ofName "word"), .output (.ofName "no")]
    let context : Context := ⟨[("yes", .boolean true), ("word", .string "!")]⟩
    let d : Draft := ⟨⟨[("no", .string "")]⟩, ""⟩
    AllUntrue Registry.empty (d.scope.over context) [(no, [.output failing])] ∧
      yes.value Registry.empty (d.scope.over context) = .ok (.boolean true) ∧
      ((block [(no, []), (yes, body)] none).render Registry.empty context d).map Draft.output = .ok "!" ∧
      (block ([(no, [.output failing])] ++ (yes, body) :: [(.holds failing, [])]) (some [.output failing])).render
        Registry.empty context d = (block [(no, []), (yes, body)] none).render Registry.empty context d := by
  intro failing no yes body context d
  have hbefore : AllUntrue Registry.empty (d.scope.over context) [(no, [.output failing])] := by
    intro branch hbranch
    rw [List.mem_singleton.mp hbranch]
    exact ⟨.string "", rfl, rfl⟩
  have hvalue : yes.value Registry.empty (d.scope.over context) = .ok (.boolean true) := rfl
  have hwritten : ((block [(no, []), (yes, body)] none).render Registry.empty context d).map Draft.output = .ok "!" := by
    decide +kernel
  exact ⟨hbefore, hvalue, hwritten, (block_nests_and_decides Registry.empty context d).2.2.1 _ [(no, [])] _ _ _ [] _ none
    _ hbefore rfl hvalue rfl⟩

end Node

end TextTemplate
