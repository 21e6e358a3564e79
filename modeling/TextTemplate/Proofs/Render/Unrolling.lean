import TextTemplate.Proofs.Render.Scopes

namespace TextTemplate

open Outcome (Related bind_eq_ok_iff)

/-- The element at a place of the array that a name stands for, `name[i]`. -/
def Filtered.element (name : String) (i : Nat) : Filtered :=
  ⟨.path [.key name, .index i] ⟨0, name.utf8ByteSize + (toString i).utf8ByteSize + 2⟩, []⟩

theorem Filtered.value_element (registry : Registry) {names : Names} {name : String} {items : List Value} {i : Nat}
    {item : Value} (hname : names name = some (.array items)) (hitem : items[i]? = some item) :
    (element name i).value registry names = .ok item := by
  change Segment.resolve names [.key name, .index i] >>= _ = _
  simp only [Segment.resolve, hname, Segment.follow, hitem]
  rfl

namespace Node

/-- A copy of the body, in front of it the assignment of an element of the array. -/
def pass (x ys : String) (body : List Node) (i : Nat) : List Node :=
  .assign x (.element ys i) :: body

/-- `assign ys = source`, then for each place below `n` the assignment `x = ys[i]` and a copy of the body. -/
def unrolled (x ys : String) (source : Filtered) (body : List Node) (n : Nat) : List Node :=
  .assign ys source :: (List.range n).flatMap (pass x ys body)

/-- From the first draft to the last the body is rendered once for each of the items, in their order, and every time
`x` is bound to the item at the start. -/
inductive Passes (registry : Registry) (context : Context) (x : String) (body : List Node) :
    Draft → List Value → Draft → Prop
  | done {d : Draft} : Passes registry context x body d [] d
  | pass {d e a : Draft} {item : Value} {rest : List Value}
      (h : renderAll registry context body (d.bind x item) = .ok e) (hrest : Passes registry context x body e rest a) :
      Passes registry context x body d (item :: rest) a

variable {registry : Registry} {context : Context} {x ys : String} {source : Filtered} {body : List Node}

theorem passes_of_foldlM {items : List Value} {d a : Draft}
    (h : items.foldlM (fun d item => renderAll registry context body (d.bind x item)) d = .ok a) :
    Passes registry context x body d items a := by
  induction items generalizing d with
  | nil =>
    cases h
    exact .done
  | cons item rest ih =>
    rw [List.foldlM_cons] at h
    obtain ⟨e, he, hrest⟩ := bind_eq_ok_iff.mp h
    exact .pass he (ih hrest)

theorem renderAll_flatMap (registry : Registry) (context : Context) {α : Type} (f : α → List Node) (l : List α)
    (d : Draft) :
    renderAll registry context (l.flatMap f) d = l.foldlM (fun d a => renderAll registry context (f a) d) d := by
  induction l generalizing d with
  | nil => rw [List.flatMap_nil, renderAll]; rfl
  | cons a l ih =>
    rw [List.flatMap_cons, renderAll_append, List.foldlM_cons]
    congr 1
    funext e
    exact ih e

theorem render_loop_of_array {d : Draft} {items : List Value}
    (h : source.value registry (d.scope.over context) = .ok (.array items)) :
    (Node.loop x source body).render registry context d =
      (items.foldlM (fun d item => renderAll registry context body (d.bind x item)) d).map
        (·.restore x (d.scope.get? x)) := by
  rw [Node.render, h]
  change (items.foldlM (fun d item => renderAll registry context body (d.bind x item)) d >>=
    fun e => .ok (e.restore x (d.scope.get? x))) = _
  cases items.foldlM (fun d item => renderAll registry context body (d.bind x item)) d <;> rfl

theorem renderAll_unrolled {d : Draft} {v : Value} (h : source.value registry (d.scope.over context) = .ok v)
    (n : Nat) : renderAll registry context (unrolled x ys source body n) d =
      (List.range n).foldlM (fun d i => renderAll registry context (pass x ys body i) d) (d.bind ys v) := by
  rw [unrolled, renderAll, Node.render, h]
  exact renderAll_flatMap registry context (pass x ys body) (List.range n) (d.bind ys v)

/-- How a loop and its unrolled form stand to each other between two passes: all names are bound alike but the two
variables, and `ys` keeps the array. -/
structure Abreast (x ys : String) (items : List Value) (d d' : Draft) : Prop where
  same : d.SameOn {x, ys}ᶜ d'
  kept : d'.scope.get? ys = some (.array items)

/-- One pass keeps them abreast, or fails in both. -/
theorem Abreast.pass {items : List Value} {d d' : Draft} (h : Abreast x ys items d d') {i : Nat} {item : Value}
    (hitem : items[i]? = some item) (hne : ys ≠ x) (hfree : ys ∉ freeAll body) (hassigned : ys ∉ assignedAll body) :
    Related Eq (Abreast x ys items) (renderAll registry context body (d.bind x item))
      (renderAll registry context (Node.pass x ys body i) d') := by
  have hys : d'.scope.over context ys = some (.array items) := by rw [Scope.over, h.kept]; rfl
  have hpass : renderAll registry context (Node.pass x ys body i) d' =
      renderAll registry context body (d'.bind x item) := by
    rw [Node.pass, renderAll, Node.render, Filtered.value_element registry hys hitem]
    rfl
  have hread : ∀ name ∈ freeAll body, name ∈ insert x ({x, ys}ᶜ : Set String) := by
    intro name hname
    by_cases hx : name = x
    · exact .inl hx
    · exact .inr fun hmem => hmem.elim hx (ne_of_mem_of_not_mem hname hfree)
  rw [hpass]
  refine (related_renderAll_of_sameOn body hread (h.same.bind x item)).mono ?_
  intro a a' _ ha' hsame
  refine ⟨hsame.mono (Set.subset_insert x _), ?_⟩
  rw [get?_of_renderAll body ha' hassigned, Draft.scope_bind, Scope.get?_set, if_neg hne, h.kept]

/-- A loop over an array and its unrolled form write the same or fail with the same error, and leave all names but `x`
and `ys` bound alike; the loop gives `x` its old binding back. -/
theorem related_loop_unrolled {d : Draft} {items : List Value}
    (hitems : source.value registry (d.scope.over context) = .ok (.array items)) (hne : ys ≠ x)
    (hfree : ys ∉ freeAll body) (hassigned : ys ∉ assignedAll body) :
    Related Eq
      (fun a a' => a.output = a'.output ∧ (∀ name, name ≠ x → name ≠ ys → a.scope.get? name = a'.scope.get? name) ∧
        a.scope.get? x = d.scope.get? x ∧
        ∃ e, Passes registry context x body d items e ∧ a = e.restore x (d.scope.get? x))
      ((Node.loop x source body).render registry context d)
      (renderAll registry context (unrolled x ys source body items.length) d) := by
  have hstart : Abreast x ys items d (d.bind ys (.array items)) := by
    refine ⟨⟨rfl, ?_⟩, ?_⟩
    · intro name hname
      have hother : name ≠ ys := fun he => hname (.inr he)
      rw [Draft.scope_bind, Scope.get?_set, if_neg hother]
    · rw [Draft.scope_bind, Scope.get?_set, if_pos rfl]
  have hrun : Related Eq (Abreast x ys items)
      (items.foldlM (fun d item => renderAll registry context body (d.bind x item)) d)
      ((List.range items.length).foldlM (fun d i => renderAll registry context (pass x ys body i) d)
        (d.bind ys (.array items))) :=
    .foldlM_range (fun i item hitem e e' he => he.pass hitem hne hfree hassigned) hstart
  rw [render_loop_of_array hitems, renderAll_unrolled hitems]
  refine hrun.map_left ?_
  intro e e' he h
  refine ⟨h.same.output, ?_, ?_, e, passes_of_foldlM he, rfl⟩
  · intro name hx hys
    rw [Draft.scope_restore, Scope.get?_restore, if_neg hx]
    exact h.same.binding name fun hmem => hmem.elim hx hys
  · rw [Draft.scope_restore, Scope.get?_restore, if_pos rfl]

/-- The body assigns to the loop variable and to what the source reads, and `x` is bound before the loop. -/
theorem related_loop_unrolled_reassigned :
    let source : Filtered := .ofName "xs"
    let body : List Node := [.output (.ofName "x"), .loop "x" (.ofName "xs") [.text "."],
      .assign "xs" (.ofName "x"), .assign "x" (.ofName "z"), .output (.ofName "x")]
    let context : Context := ⟨[("xs", .array [.string "a", .nil, .string "c"]), ("z", .string "!")]⟩
    let d : Draft := ⟨⟨[("x", .string "before")]⟩, ""⟩
    "ys" ≠ "x" ∧ "ys" ∉ freeAll body ∧ "ys" ∉ assignedAll body ∧
      source.value Registry.empty (d.scope.over context) = .ok (.array [.string "a", .nil, .string "c"]) ∧
      ((Node.loop "x" source body).render Registry.empty context d).map Draft.output = .ok "a...!!c!" ∧
      Related Eq
        (fun a a' => a.output = a'.output ∧ (∀ name, name ≠ "x" → name ≠ "ys" → a.scope.get? name = a'.scope.get? name) ∧
          a.scope.get? "x" = some (.string "before") ∧
          ∃ e, Passes Registry.empty context "x" body d [.string "a", .nil, .string "c"] e ∧
            a = e.restore "x" (some (.string "before")))
        ((Node.loop "x" source body).render Registry.empty context d)
        (renderAll Registry.empty context (unrolled "x" "ys" source body 3) d) := by
  intro source body context d
  have hsource : source.value Registry.empty (d.scope.over context) =
      .ok (.array [.string "a", .nil, .string "c"]) := rfl
  have hne : "ys" ≠ "x" := by decide
  have hfree : "ys" ∉ freeAll body := by decide
  have hassigned : "ys" ∉ assignedAll body := by decide
  have hwritten : ((Node.loop "x" source body).render Registry.empty context d).map Draft.output = .ok "a...!!c!" := by
    decide +kernel
  exact ⟨hne, hfree, hassigned, hsource, hwritten, related_loop_unrolled hsource hne hfree hassigned⟩

end Node

end TextTemplate
