import Mathlib.Data.Set.Insert
import TextTemplate.Proofs.Bindings
import TextTemplate.Proofs.Render.Alike

namespace TextTemplate

open Outcome (Related)

mutual

/-- The expressions that occur in a node, in the order in which they are written. -/
def Node.expressions : Node → List Filtered
  | .text _ => []
  | .output e => [e]
  | .conditional chain => chain.expressions
  | .loop _ source body => source :: Node.expressionsAll body
  | .assign _ e => [e]

def Node.expressionsAll : List Node → List Filtered
  | [] => []
  | node :: rest => node.expressions ++ Node.expressionsAll rest

def Chain.expressions : Chain → List Filtered
  | .stop => []
  | .otherwise body => Node.expressionsAll body
  | .test condition body rest => condition.operands ++ (Node.expressionsAll body ++ rest.expressions)

end

mutual

/-- The names that a node reads, but for those that stand for the variable of a loop around them. -/
def Node.free : Node → List String
  | .text _ => []
  | .output e => e.roots
  | .conditional chain => chain.free
  | .loop name source body => source.roots ++ (Node.freeAll body).filter (· ≠ name)
  | .assign _ e => e.roots

def Node.freeAll : List Node → List String
  | [] => []
  | node :: rest => node.free ++ Node.freeAll rest

def Chain.free : Chain → List String
  | .stop => []
  | .otherwise body => Node.freeAll body
  | .test condition body rest => condition.operands.flatMap Filtered.roots ++ (Node.freeAll body ++ rest.free)

end

mutual

theorem Node.exists_of_mem_free {name : String} (node : Node) (h : name ∈ node.free) :
    ∃ e ∈ node.expressions, name ∈ e.roots := by
  cases node with
  | text => cases h
  | output e | assign target e => exact ⟨e, List.mem_cons_self, h⟩
  | conditional chain => exact chain.exists_of_mem_free h
  | loop x source body =>
    rcases List.mem_append.mp h with hsource | hbody
    · exact ⟨source, List.mem_cons_self, hsource⟩
    · obtain ⟨e, he, hname⟩ := Node.exists_of_mem_freeAll body (List.mem_filter.mp hbody).1
      exact ⟨e, List.mem_cons_of_mem source he, hname⟩

theorem Node.exists_of_mem_freeAll {name : String} (nodes : List Node) (h : name ∈ Node.freeAll nodes) :
    ∃ e ∈ Node.expressionsAll nodes, name ∈ e.roots := by
  cases nodes with
  | nil => cases h
  | cons node rest =>
    rcases List.mem_append.mp h with hnode | hrest
    · obtain ⟨e, he, hname⟩ := node.exists_of_mem_free hnode
      exact ⟨e, List.mem_append_left _ he, hname⟩
    · obtain ⟨e, he, hname⟩ := Node.exists_of_mem_freeAll rest hrest
      exact ⟨e, List.mem_append_right _ he, hname⟩

theorem Chain.exists_of_mem_free {name : String} (chain : Chain) (h : name ∈ chain.free) :
    ∃ e ∈ chain.expressions, name ∈ e.roots := by
  cases chain with
  | stop => cases h
  | otherwise body => exact Node.exists_of_mem_freeAll body h
  | test condition body rest =>
    rcases List.mem_append.mp h with hcondition | hlater
    · obtain ⟨e, he, hname⟩ := List.mem_flatMap.mp hcondition
      exact ⟨e, List.mem_append_left _ he, hname⟩
    · rcases List.mem_append.mp hlater with hbody | hrest
      · obtain ⟨e, he, hname⟩ := Node.exists_of_mem_freeAll body hbody
        exact ⟨e, List.mem_append_right _ (List.mem_append_left _ he), hname⟩
      · obtain ⟨e, he, hname⟩ := rest.exists_of_mem_free hrest
        exact ⟨e, List.mem_append_right _ (List.mem_append_right _ he), hname⟩

end

/-- The names that the paths in nodes start from. -/
def Node.rootsAll (nodes : List Node) : List String :=
  (Node.expressionsAll nodes).flatMap Filtered.roots

def Node.filterNamesAll (nodes : List Node) : List String :=
  (Node.expressionsAll nodes).flatMap Filtered.filterNames

/-- An expression that reads names of `S` only and sends its value only through filters that are the same in
both registries. -/
structure Filtered.Within (S : Set String) (r r' : Registry) (e : Filtered) : Prop where
  roots : ∀ name ∈ e.roots, name ∈ S
  filters : ∀ name ∈ e.filterNames, r.get? name = r'.get? name

section

variable {E : RenderError → RenderError → Prop} {f : String → String} {S : Set String} {r r' : Registry}

theorem Filtered.Within.alike_rename {e : Filtered} (h : e.Within S r r') (hE : ∀ e, E e (e.rename f)) :
    AlikeValues E f S (e.value r) ((e.rename f).value r') := by
  intro names names' hnames
  change Related E Eq (e.value r names) ((e.rename f).value r' names')
  rw [Filtered.value_rename (fun name hname => hnames name (h.roots name hname)) h.filters]
  exact .of_mapError hE

theorem Condition.alike_rename {c : Condition} (h : ∀ e ∈ c.operands, e.Within S r r')
    (hE : ∀ e, E e (e.rename f)) : AlikeValues E f S (c.value r) ((c.rename f).value r') := by
  intro names names' hnames
  change Related E Eq (c.value r names) ((c.rename f).value r' names')
  rw [Condition.value_rename (fun e he name hname => hnames name ((h e he).roots name hname))
    fun e he => (h e he).filters]
  exact .of_mapError hE

theorem Filtered.Within.alike_self {e : Filtered} (h : e.Within S r r') (hE : ∀ e, E e e) :
    AlikeValues E id S (e.value r) (e.value r') := by
  simpa using h.alike_rename (f := id) (by simpa using hE)

theorem Condition.alike_self {c : Condition} (h : ∀ e ∈ c.operands, e.Within S r r') (hE : ∀ e, E e e) :
    AlikeValues E id S (c.value r) (c.value r') := by
  simpa using Condition.alike_rename (f := id) h (by simpa using hE)

theorem Enters.same (S : Set String) (name : String) : Enters id S name name id (insert name S) where
  loopVariable _ _ h := h
  other _ hmem hne := ⟨hmem.resolve_left hne, rfl, hne⟩
  unhidden _ hmem _ _ := ⟨.inr hmem, rfl⟩

end

section

variable {E : RenderError → RenderError → Prop} {r r' : Registry}

mutual

/-- Nodes are alike to themselves as far as the names go that they read from outside. -/
theorem Node.alike_of_free (hE : ∀ e, E e e) {S : Set String} (node : Node) (hfree : ∀ name ∈ node.free, name ∈ S)
    (hfilters : ∀ e ∈ node.expressions, ∀ name ∈ e.filterNames, r.get? name = r'.get? name) :
    Node.Alike E r r' id S node node := by
  cases node with
  | text content => exact .text content
  | output e =>
    have he : e.Within S r r' := ⟨hfree, hfilters e List.mem_cons_self⟩
    exact .output (he.alike_self hE)
  | conditional chain => exact .conditional (chain.alike_of_free hE hfree hfilters)
  | assign name e =>
    have he : e.Within S r r' := ⟨hfree, hfilters e List.mem_cons_self⟩
    exact .assign (he.alike_self hE) fun _ _ => Iff.rfl
  | loop name source body =>
    have hsource : source.Within S r r' :=
      ⟨fun x hx => hfree x (List.mem_append_left _ hx), hfilters source List.mem_cons_self⟩
    have hinner : ∀ x ∈ Node.freeAll body, x ∈ insert name S := by
      intro x hx
      by_cases hname : x = name
      · exact .inl hname
      · exact .inr (hfree x (List.mem_append_right _ (List.mem_filter.mpr ⟨hx, by simpa using hname⟩)))
    have hbody : Node.AllAlike E r r' id (insert name S) body body :=
      Node.allAlike_of_free hE body hinner fun e he => hfilters e (List.mem_cons_of_mem source he)
    exact .loop id _ (hsource.alike_self hE) hbody (.same S name) (fun _ _ hne he => absurd he hne)
      (fun _ hne => absurd rfl hne)

theorem Node.allAlike_of_free (hE : ∀ e, E e e) {S : Set String} (nodes : List Node)
    (hfree : ∀ name ∈ Node.freeAll nodes, name ∈ S)
    (hfilters : ∀ e ∈ Node.expressionsAll nodes, ∀ name ∈ e.filterNames, r.get? name = r'.get? name) :
    Node.AllAlike E r r' id S nodes nodes := by
  cases nodes with
  | nil => exact .nil
  | cons node rest =>
    exact .cons
      (node.alike_of_free hE (fun x hx => hfree x (List.mem_append_left _ hx))
        fun e he => hfilters e (List.mem_append_left _ he))
      (Node.allAlike_of_free hE rest (fun x hx => hfree x (List.mem_append_right _ hx))
        fun e he => hfilters e (List.mem_append_right _ he))

theorem Chain.alike_of_free (hE : ∀ e, E e e) {S : Set String} (chain : Chain) (hfree : ∀ name ∈ chain.free, name ∈ S)
    (hfilters : ∀ e ∈ chain.expressions, ∀ name ∈ e.filterNames, r.get? name = r'.get? name) :
    Chain.Alike E r r' id S chain chain := by
  cases chain with
  | stop => exact .stop
  | otherwise body => exact .otherwise (Node.allAlike_of_free hE body hfree hfilters)
  | test condition body rest =>
    have hcondition : ∀ e ∈ condition.operands, e.Within S r r' := by
      intro e he
      exact ⟨fun x hx => hfree x (List.mem_append_left _ (List.mem_flatMap.mpr ⟨e, he, hx⟩)),
        hfilters e (List.mem_append_left _ he)⟩
    exact .test (condition.alike_self hcondition hE)
      (Node.allAlike_of_free hE body
        (fun x hx => hfree x (List.mem_append_right _ (List.mem_append_left _ hx)))
        fun e he => hfilters e (List.mem_append_right _ (List.mem_append_left _ he)))
      (rest.alike_of_free hE (fun x hx => hfree x (List.mem_append_right _ (List.mem_append_right _ hx)))
        fun e he => hfilters e (List.mem_append_right _ (List.mem_append_right _ he)))

end

/-- Nodes are alike to themselves as far as all names go that occur in them. -/
theorem Node.allAlike_self (hE : ∀ e, E e e) {S : Set String} (nodes : List Node)
    (h : ∀ e ∈ Node.expressionsAll nodes, e.Within S r r') : Node.AllAlike E r r' id S nodes nodes := by
  refine Node.allAlike_of_free hE nodes ?_ fun e he => (h e he).filters
  intro name hname
  obtain ⟨e, he, hroot⟩ := Node.exists_of_mem_freeAll nodes hname
  exact (h e he).roots name hroot

theorem Chain.alike_self (hE : ∀ e, E e e) {S : Set String} (chain : Chain)
    (h : ∀ e ∈ chain.expressions, e.Within S r r') : Chain.Alike E r r' id S chain chain := by
  refine chain.alike_of_free hE ?_ fun e he => (h e he).filters
  intro name hname
  obtain ⟨e, he, hroot⟩ := chain.exists_of_mem_free hname
  exact (h e he).roots name hroot

end

/-- What has been written at the end of a render. -/
def Node.written (r : Registry) (c : Context) (nodes : List Node) (d : Draft) : Except RenderError String :=
  (Node.renderAll r c nodes d).map Draft.output

/-- A template is rendered with nothing written or bound at the start. -/
theorem Template.render_eq_written (t : Template) (r : Registry) (c : Context) :
    t.render r c = Node.written r c t.nodes Draft.empty := by
  rw [Template.render, Node.written]
  cases Node.renderAll r c t.nodes Draft.empty <;> rfl

theorem Context.get?_insert (c : Context) (name key : String) (v : Value) :
    (c.insert name v).get? key = if key = name then some v else c.get? key :=
  Bindings.lookup_insert name key v c.vars

/-- A scope does not hide what is inserted into the context under a name that it lacks. -/
theorem Scope.over_insert {s : Scope} {name : String} (h : s.get? name = none) (c : Context) (key : String)
    (v : Value) : s.over (c.insert name v) key = if key = name then some v else s.over c key := by
  rw [Scope.over, Context.get?_insert]
  by_cases hkey : key = name
  · rw [if_pos hkey, if_pos hkey, hkey, h, Option.none_or]
  · rw [if_neg hkey, if_neg hkey]
    rfl

theorem Scope.over_insert_of_ne (s : Scope) {name key : String} (h : key ≠ name) (c : Context) (v : Value) :
    s.over (c.insert name v) key = s.over c key := by
  rw [Scope.over, Context.get?_insert, if_neg h]
  rfl

theorem Draft.Agree.output_eq {f : String → String} {S : Set String} {c c' : Context} {p : String}
    {d d' : Draft} (h : Draft.Agree f S c c' p p d d') : d.output = d'.output := by
  obtain ⟨text, hd, hd'⟩ := h.output
  rw [hd, hd']

namespace Node

variable {r r' : Registry} {c c' : Context} {nodes : List Node} {d d' : Draft}

/-- Renders of the same nodes that find the same under names of `S`, and the same filters, write the same and
bind the names of `S` alike. -/
theorem related_renderAll_of_free {S : Set String} (hfree : ∀ name ∈ freeAll nodes, name ∈ S)
    (hnames : ∀ name ∈ S, d.scope.over c name = d'.scope.over c' name)
    (hfilters : ∀ name ∈ filterNamesAll nodes, r.get? name = r'.get? name) :
    Related Eq (Draft.Agree id S c c' d.output d'.output) (renderAll r c nodes d)
      (renderAll r' c' nodes d') := by
  have hsame : ∀ e ∈ expressionsAll nodes, ∀ name ∈ e.filterNames, r.get? name = r'.get? name :=
    fun e he name hname => hfilters name (List.mem_flatMap.mpr ⟨e, he, hname⟩)
  exact (allAlike_of_free (fun _ => rfl) nodes hfree hsame).related_render (.start hnames)

theorem mem_rootsAll_of_mem_freeAll {name : String} (h : name ∈ freeAll nodes) : name ∈ rootsAll nodes :=
  List.mem_flatMap.mpr (exists_of_mem_freeAll nodes h)

theorem related_renderAll {S : Set String} (hroots : ∀ name ∈ rootsAll nodes, name ∈ S)
    (hnames : ∀ name ∈ S, d.scope.over c name = d'.scope.over c' name)
    (hfilters : ∀ name ∈ filterNamesAll nodes, r.get? name = r'.get? name) :
    Related Eq (Draft.Agree id S c c' d.output d'.output) (renderAll r c nodes d)
      (renderAll r' c' nodes d') :=
  related_renderAll_of_free (fun name hname => hroots name (mem_rootsAll_of_mem_freeAll hname)) hnames hfilters

theorem written_eq_of_free (hnames : ∀ name ∈ freeAll nodes, d.scope.over c name = d'.scope.over c' name)
    (hfilters : ∀ name ∈ filterNamesAll nodes, r.get? name = r'.get? name) (hout : d.output = d'.output) :
    written r c nodes d = written r' c' nodes d' := by
  have h := related_renderAll_of_free (S := {name | name ∈ freeAll nodes}) (fun _ hname => hname) hnames hfilters
  rw [hout] at h
  exact h.map_eq fun a a' ha => ha.output_eq

theorem written_eq (hnames : ∀ name ∈ rootsAll nodes, d.scope.over c name = d'.scope.over c' name)
    (hfilters : ∀ name ∈ filterNamesAll nodes, r.get? name = r'.get? name) (hout : d.output = d'.output) :
    written r c nodes d = written r' c' nodes d' :=
  written_eq_of_free (fun name hname => hnames name (mem_rootsAll_of_mem_freeAll hname)) hfilters hout

/-- What has been written before stands in front and changes nothing else. -/
theorem written_behind (r : Registry) (c : Context) (nodes : List Node) (scope : Scope) (before : String) :
    written r c nodes ⟨scope, before⟩ = (written r c nodes ⟨scope, ""⟩).map (before ++ ·) := by
  have hrelated (d d' : Draft) (hscope : d.scope = d'.scope) :
      Related Eq (Draft.Agree id Set.univ c c d.output d'.output) (renderAll r c nodes d) (renderAll r c nodes d') :=
    related_renderAll_of_free (fun _ _ => trivial) (fun _ _ => by rw [hscope]) fun _ _ => rfl
  have hwritten : (renderAll r c nodes ⟨scope, before⟩).map Draft.output =
      (renderAll r c nodes ⟨scope, ""⟩).map fun d => before ++ d.output := by
    refine (hrelated ⟨scope, before⟩ ⟨scope, ""⟩ rfl).map_eq ?_
    intro d d' hd
    obtain ⟨text, hbehind, hempty⟩ := hd.output
    rw [hbehind, hempty, String.empty_append]
  rw [written, hwritten, written]
  cases renderAll r c nodes ⟨scope, ""⟩ <;> rfl

theorem written_insert_eq_written_bind (r : Registry) (c : Context) (nodes : List Node) {d : Draft}
    {name : String} (h : d.scope.get? name = none) (v : Value) :
    written r (c.insert name v) nodes d = written r c nodes (d.bind name v) := by
  refine written_eq ?_ (fun _ _ => rfl) rfl
  intro key _
  rw [Scope.over_insert h, Draft.scope_bind, Scope.over_set]

theorem written_eq_of_perm (r : Registry) (nodes : List Node) (d : Draft) (hperm : c.vars.Perm c'.vars)
    (hn : (c.vars.map (·.1)).Nodup) : written r c' nodes d = written r c nodes d := by
  refine written_eq ?_ (fun _ _ => rfl) rfl
  intro key _
  rw [Scope.over, Scope.over, Context.get?, Context.get?, Bindings.lookup_eq_of_perm hn hperm]

theorem written_insert_unnamed (r : Registry) (c : Context) (d : Draft) {name : String}
    (h : name ∉ rootsAll nodes) (v : Value) :
    written r (c.insert name v) nodes d = written r c nodes d := by
  refine written_eq ?_ (fun _ _ => rfl) rfl
  intro key hkey
  exact Scope.over_insert_of_ne d.scope (ne_of_mem_of_not_mem hkey h) c v

theorem written_bind_unnamed (r : Registry) (c : Context) (d : Draft) {name : String}
    (h : name ∉ rootsAll nodes) (v : Value) :
    written r c nodes (d.bind name v) = written r c nodes d := by
  refine written_eq ?_ (fun _ _ => rfl) rfl
  intro key hkey
  rw [Draft.scope_bind, Scope.over_set, if_neg (ne_of_mem_of_not_mem hkey h)]

theorem written_register_unnamed (r : Registry) (c : Context) (d : Draft) {name : String}
    (h : name ∉ filterNamesAll nodes) (filter : Filter) :
    written (r.register name filter) c nodes d = written r c nodes d := by
  refine written_eq (fun _ _ => rfl) ?_ rfl
  intro key hkey
  rw [Registry.get?_register, if_neg (ne_of_mem_of_not_mem hkey h)]

/-- Two renders that find the same under the names and filters that a template names add the same text or fail with
the same error, however their bindings are kept. -/
theorem renderAll_depends_on_named (nodes : List Node) :
    (∀ (S : Set String) (r r' : Registry) (c c' : Context) (d d' : Draft),
      (∀ name ∈ rootsAll nodes, name ∈ S) →
      (∀ name ∈ S, d.scope.over c name = d'.scope.over c' name) →
      (∀ name ∈ filterNamesAll nodes, r.get? name = r'.get? name) →
      Related Eq
        (fun a a' => (∃ text, a.output = d.output ++ text ∧ a'.output = d'.output ++ text) ∧
          ∀ name ∈ S, a.scope.over c name = a'.scope.over c' name)
        (renderAll r c nodes d) (renderAll r' c' nodes d')) ∧
    ∀ (r : Registry) (c : Context) (d : Draft),
      (∀ name v, d.scope.get? name = none →
        written r (c.insert name v) nodes d = written r c nodes (d.bind name v)) ∧
      (∀ c' : Context, c.vars.Perm c'.vars → (c.vars.map (·.1)).Nodup →
        written r c' nodes d = written r c nodes d) ∧
      (∀ name v, name ∉ rootsAll nodes →
        written r (c.insert name v) nodes d = written r c nodes d ∧
        written r c nodes (d.bind name v) = written r c nodes d) ∧
      (∀ name filter, name ∉ filterNamesAll nodes →
        written (r.register name filter) c nodes d = written r c nodes d) := by
  constructor
  · intro S r r' c c' d d' hroots hnames hfilters
    exact (related_renderAll hroots hnames hfilters).mono fun a a' _ _ ha => ⟨ha.output, ha.names⟩
  · intro r c d
    refine ⟨?_, ?_, ?_, ?_⟩
    · exact fun name v h => written_insert_eq_written_bind r c nodes h v
    · exact fun c' hperm hn => written_eq_of_perm r nodes d hperm hn
    · exact fun name v h => ⟨written_insert_unnamed r c d h v, written_bind_unnamed r c d h v⟩
    · exact fun name filter h => written_register_unnamed r c d h filter

/-- A name that is bound to nil and one that both levels bind. -/
theorem renderAll_depends_on_named_hidden :
    let nodes : List Node := [.loop "x" (.ofName "xs") [.output (.ofName "x")], .output (.ofName "x")]
    let items : Value := .array [.string "a", .nil]
    let c : Context := ⟨[("x", .string "hidden"), ("xs", items)]⟩
    let c' : Context := ⟨[("xs", .string "hidden"), ("other", .nil)]⟩
    let d : Draft := ⟨⟨[("x", .nil)]⟩, "left: "⟩
    let d' : Draft := ⟨⟨[("xs", items), ("x", .nil)]⟩, "right: "⟩
    let named : Set String := {name | name ∈ rootsAll nodes}
    (∀ name ∈ named, d.scope.over c name = d'.scope.over c' name) ∧
      Related Eq
        (fun a a' => (∃ text, a.output = "left: " ++ text ∧ a'.output = "right: " ++ text) ∧
          ∀ name ∈ named, a.scope.over c name = a'.scope.over c' name)
        (renderAll Registry.empty c nodes d) (renderAll Registry.empty c' nodes d') := by
  intro nodes items c c' d d' named
  have hnames : ∀ name ∈ named, d.scope.over c name = d'.scope.over c' name := by
    intro name hname
    change name ∈ ["xs", "x", "x"] at hname
    simp only [List.mem_cons, List.not_mem_nil, or_false, or_self] at hname
    rcases hname with rfl | rfl <;> rfl
  exact ⟨hnames, (renderAll_depends_on_named nodes).1 named Registry.empty Registry.empty c c' d d'
    (fun _ hname => hname) hnames fun _ _ => rfl⟩

end Node

end TextTemplate
