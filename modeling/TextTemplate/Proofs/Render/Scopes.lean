import TextTemplate.Proofs.Render.Dependence

namespace TextTemplate

open Outcome (Related)

/-- The same is written, and the names of `S` have the same bindings. -/
structure Draft.SameOn (S : Set String) (d d' : Draft) : Prop where
  output : d.output = d'.output
  binding : ∀ name ∈ S, d.scope.get? name = d'.scope.get? name

namespace Draft.SameOn

variable {S T : Set String} {d d' : Draft}

theorem refl (S : Set String) (d : Draft) : SameOn S d d := ⟨rfl, fun _ _ => rfl⟩

theorem symm (h : SameOn S d d') : SameOn S d' d :=
  ⟨h.output.symm, fun name hname => (h.binding name hname).symm⟩

theorem trans {d'' : Draft} (h : SameOn S d d') (h' : SameOn S d' d'') : SameOn S d d'' :=
  ⟨h.output.trans h'.output, fun name hname => (h.binding name hname).trans (h'.binding name hname)⟩

theorem mono (h : SameOn S d d') (hTS : T ⊆ S) : SameOn T d d' :=
  ⟨h.output, fun name hname => h.binding name (hTS hname)⟩

theorem write (h : SameOn S d d') (s : String) : SameOn S (d.write s) (d'.write s) :=
  ⟨congrArg (· ++ s) h.output, h.binding⟩

/-- A name that both bind to one value is among those with the same bindings. -/
theorem bind (h : SameOn S d d') (name : String) (v : Value) :
    SameOn (insert name S) (d.bind name v) (d'.bind name v) := by
  refine ⟨h.output, ?_⟩
  intro key hkey
  rw [scope_bind, scope_bind, Scope.get?_set, Scope.get?_set]
  by_cases hname : key = name
  · rw [if_pos hname, if_pos hname]
  · rw [if_neg hname, if_neg hname, h.binding key (hkey.resolve_left hname)]

/-- After two loops over `name` that began at `d` and `d'`, its binding is again as it was in each. -/
theorem restore {e e' : Draft} {name : String} (h : SameOn S d d') (he : SameOn {key ∈ S | key ≠ name} e e') :
    SameOn S (e.restore name (d.scope.get? name)) (e'.restore name (d'.scope.get? name)) := by
  refine ⟨he.output, ?_⟩
  intro key hkey
  rw [scope_restore, scope_restore, Scope.get?_restore, Scope.get?_restore]
  by_cases hname : key = name
  · rw [if_pos hname, if_pos hname, ← hname, h.binding key hkey]
  · rw [if_neg hname, if_neg hname, he.binding key ⟨hkey, hname⟩]

/-- Giving a name the binding that it has changes nothing. -/
theorem restore_self (d : Draft) (name : String) : SameOn Set.univ (d.restore name (d.scope.get? name)) d := by
  refine ⟨rfl, ?_⟩
  intro key _
  rw [scope_restore, Scope.get?_restore]
  by_cases hname : key = name
  · rw [if_pos hname, hname]
  · rw [if_neg hname]

/-- Drafts that differ in the binding of one name only do not differ once it has one binding in both. -/
theorem restore_both {name : String} (h : SameOn {name}ᶜ d d') (e : Draft) :
    SameOn Set.univ (d.restore name (e.scope.get? name)) (d'.restore name (e.scope.get? name)) :=
  (refl Set.univ e).restore (h.mono fun _ hkey => hkey.2)

theorem bind_left (d : Draft) (name : String) (v : Value) : SameOn {name}ᶜ (d.bind name v) d := by
  refine ⟨rfl, ?_⟩
  intro key hkey
  have hother : key ≠ name := hkey
  rw [scope_bind, Scope.get?_set, if_neg hother]

theorem names (h : SameOn S d d') (c : Context) : Names.Agree id S (d.scope.over c) (d'.scope.over c) :=
  fun name hname => Scope.over_congr c (h.binding name hname)

end Draft.SameOn

section

variable {r : Registry} {c : Context}

theorem Filtered.related_value {S : Set String} {e : Filtered} {d d' : Draft} (hroots : ∀ name ∈ e.roots, name ∈ S)
    (h : d.SameOn S d') : Related Eq Eq (e.value r (d.scope.over c)) (e.value r (d'.scope.over c)) :=
  have hwithin : e.Within S r r := ⟨hroots, fun _ _ => rfl⟩
  hwithin.alike_self (fun _ => rfl) _ _ (h.names c)

theorem Condition.related_value {S : Set String} {condition : Condition} {d d' : Draft}
    (hroots : ∀ name ∈ condition.operands.flatMap Filtered.roots, name ∈ S) (h : d.SameOn S d') :
    Related Eq Eq (condition.value r (d.scope.over c)) (condition.value r (d'.scope.over c)) := by
  have hwithin : ∀ e ∈ condition.operands, e.Within S r r :=
    fun e he => ⟨fun name hname => hroots name (List.mem_flatMap.mpr ⟨e, he, hname⟩), fun _ _ => rfl⟩
  exact condition.alike_self hwithin (fun _ => rfl) _ _ (h.names c)

mutual

theorem Node.related_render_of_sameOn {S : Set String} (node : Node) (hfree : ∀ name ∈ node.free, name ∈ S)
    {d d' : Draft} (h : d.SameOn S d') :
    Related Eq (Draft.SameOn S) (node.render r c d) (node.render r c d') := by
  cases node with
  | text content => exact .ok (h.write content)
  | output e =>
    refine (e.related_value hfree h).bind ?_
    rintro v _ - - rfl
    exact .ok (h.write v.text)
  | assign name e =>
    refine (e.related_value hfree h).bind ?_
    rintro v _ - - rfl
    exact .ok ((h.bind name v).mono (Set.subset_insert name S))
  | conditional chain => exact chain.related_render_of_sameOn hfree h
  | loop x source body =>
    have hsource : ∀ name ∈ source.roots, name ∈ S := fun name hname => hfree name (List.mem_append_left _ hname)
    refine (source.related_value hsource h).bind ?_
    rintro v _ - - rfl
    cases v with
    | nil | boolean | number | string | date | object => exact .ok h
    | array items =>
      have hbody : ∀ name ∈ Node.freeAll body, name ∈ insert x {key ∈ S | key ≠ x} := by
        intro name hname
        by_cases hx : name = x
        · exact .inl hx
        · refine .inr ⟨hfree name (List.mem_append_right _ (List.mem_filter.mpr ⟨hname, ?_⟩)), hx⟩
          simpa using hx
      -- Between the iterations the variable may be bound differently; each iteration begins by binding it.
      have hrun : Related Eq (Draft.SameOn {key ∈ S | key ≠ x})
          (items.foldlM (fun d item => Node.renderAll r c body (d.bind x item)) d)
          (items.foldlM (fun d item => Node.renderAll r c body (d.bind x item)) d') := by
        refine Related.foldlM ?_ items (h.mono fun key hkey => hkey.1)
        intro e e' item he
        refine (Node.related_renderAll_of_sameOn body hbody (he.bind x item)).mono ?_
        exact fun a a' _ _ ha => ha.mono (Set.subset_insert x _)
      refine hrun.bind ?_
      intro e e' _ _ he
      exact .ok (h.restore he)

theorem Node.related_renderAll_of_sameOn {S : Set String} (nodes : List Node)
    (hfree : ∀ name ∈ Node.freeAll nodes, name ∈ S) {d d' : Draft} (h : d.SameOn S d') :
    Related Eq (Draft.SameOn S) (Node.renderAll r c nodes d) (Node.renderAll r c nodes d') := by
  cases nodes with
  | nil => exact .ok h
  | cons node rest =>
    refine (node.related_render_of_sameOn (fun name hname => hfree name (List.mem_append_left _ hname)) h).bind ?_
    intro e e' _ _ he
    exact Node.related_renderAll_of_sameOn rest (fun name hname => hfree name (List.mem_append_right _ hname)) he

theorem Chain.related_render_of_sameOn {S : Set String} (chain : Chain) (hfree : ∀ name ∈ chain.free, name ∈ S)
    {d d' : Draft} (h : d.SameOn S d') :
    Related Eq (Draft.SameOn S) (chain.render r c d) (chain.render r c d') := by
  cases chain with
  | stop => exact .ok h
  | otherwise body => exact Node.related_renderAll_of_sameOn body hfree h
  | test condition body rest =>
    have hcondition := condition.related_value (r := r) (c := c)
      (fun name hname => hfree name (List.mem_append_left _ hname)) h
    refine hcondition.bind ?_
    rintro v _ - - rfl
    by_cases hv : v.isTruthy
    · rw [if_pos hv, if_pos hv]
      exact Node.related_renderAll_of_sameOn body
        (fun name hname => hfree name (List.mem_append_right _ (List.mem_append_left _ hname))) h
    · rw [if_neg hv, if_neg hv]
      exact rest.related_render_of_sameOn
        (fun name hname => hfree name (List.mem_append_right _ (List.mem_append_right _ hname))) h

end

end

end TextTemplate
