import TextTemplate.Proofs.Render.Alike

namespace TextTemplate

open Outcome (Related bind_eq_ok_iff)

/-- A filter gives the same under names that agree on what its arguments read. -/
theorem FilterCall.apply_congr {names names' : Names} {call : FilterCall}
    (h : ∀ name ∈ call.roots, names name = names' name) (registry : Registry) (v : Value) :
    call.apply registry names' v = call.apply registry names v := by
  have hrename : (call.rename id).apply registry names' v =
      (call.apply registry names v).mapError (RenderError.rename id) := apply_rename h rfl v
  have hid : RenderError.rename id = id := funext RenderError.rename_id
  rw [rename_id, hid] at hrename
  rw [hrename]
  cases call.apply registry names v <;> rfl

namespace Filtered

/-- The expression up to its first `k` filters. -/
def upTo (e : Filtered) (k : Nat) : Filtered :=
  ⟨e.base, e.calls.take k⟩

/-- What stands under a name, sent through the filters behind the first `k` of the expression. -/
def resumed (e : Filtered) (k : Nat) (name : String) (span : Span) : Filtered :=
  ⟨.path [.key name] span, e.calls.drop k⟩

variable {registry : Registry} {names names' : Names}

theorem foldlM_apply_congr {calls : List FilterCall}
    (h : ∀ call ∈ calls, ∀ name ∈ call.roots, names name = names' name) (v : Value) :
    calls.foldlM (FilterCall.apply registry names') v = calls.foldlM (FilterCall.apply registry names) v := by
  induction calls generalizing v with
  | nil => rfl
  | cons call calls ih =>
    have hcall : call.apply registry names' v = call.apply registry names v :=
      FilterCall.apply_congr (h call List.mem_cons_self) registry v
    rw [List.foldlM_cons, List.foldlM_cons, hcall]
    congr 1
    funext w
    apply ih
    intro later hlater
    exact h later (List.mem_cons_of_mem call hlater)

/-- An expression is evaluated up to any of its filters, and its value there is sent through the others. -/
theorem value_eq_bind (e : Filtered) (k : Nat) :
    e.value registry names =
      (e.upTo k).value registry names >>= (e.calls.drop k).foldlM (FilterCall.apply registry names) := by
  have hsplit : e.calls = e.calls.take k ++ e.calls.drop k := (List.take_append_drop k e.calls).symm
  have hcalls (v : Value) : e.calls.foldlM (FilterCall.apply registry names) v =
      (e.calls.take k).foldlM (FilterCall.apply registry names) v >>=
        (e.calls.drop k).foldlM (FilterCall.apply registry names) := by
    conv_lhs => rw [hsplit]
    exact List.foldlM_append
  simp only [value, upTo, hcalls, bind_assoc]

/-- Under names of which `name` is bound to `v`, the rest of the expression goes on from `v`. -/
theorem value_resumed {e : Filtered} {k : Nat} {name : String} {v : Value} (hname : names' name = some v)
    (h : ∀ call ∈ e.calls.drop k, ∀ key ∈ call.roots, names key = names' key) (span : Span) :
    (e.resumed k name span).value registry names' =
      (e.calls.drop k).foldlM (FilterCall.apply registry names) v := by
  have hbase : (e.resumed k name span).base.value names' = .ok v := by
    simp [resumed, Primary.value, Segment.resolve, hname, Segment.follow]
  rw [value, hbase]
  exact foldlM_apply_congr h v

end Filtered

namespace Node

/-- The value behind the first `k` filters may be bound to a name that no later argument reads and sent on from there:
the text or the error is the same, and only that name is bound in addition. -/
theorem related_named_intermediate (registry : Registry) (context : Context) (d : Draft) (e : Filtered) (k : Nat)
    (name : String) (span : Span) (hname : ∀ call ∈ e.calls.drop k, name ∉ call.roots) :
    Related Eq
      (fun a a' => ∃ v text, (e.upTo k).value registry (d.scope.over context) = .ok v ∧
        a = d.write text ∧ a' = (d.bind name v).write text)
      ((Node.output e).render registry context d)
      (renderAll registry context [.assign name (e.upTo k), .output (e.resumed k name span)] d) := by
  have halone : (Node.output e).render registry context d =
      ((e.upTo k).value registry (d.scope.over context) >>=
        (e.calls.drop k).foldlM (FilterCall.apply registry (d.scope.over context))).map fun w => d.write w.text := by
    rw [render_output, Filtered.value_eq_bind e k]
  have hresumed (v : Value) : (Node.output (e.resumed k name span)).render registry context (d.bind name v) =
      ((e.calls.drop k).foldlM (FilterCall.apply registry (d.scope.over context)) v).map
        fun w => (d.bind name v).write w.text := by
    have hbound : (d.bind name v).scope.over context name = some v := Scope.over_set_self d.scope context name v
    have hread : ∀ call ∈ e.calls.drop k, ∀ key ∈ call.roots,
        d.scope.over context key = (d.bind name v).scope.over context key := by
      intro call hcall key hkey
      have hne : key ≠ name := ne_of_mem_of_not_mem hkey (hname call hcall)
      rw [Draft.scope_bind, Scope.over_set, if_neg hne]
    rw [render_output, Filtered.value_resumed hbound hread span]
  rw [halone, renderAll, render_assign]
  cases hvalue : (e.upTo k).value registry (d.scope.over context) with
  | error fault => exact .error rfl
  | ok v =>
    change Related Eq _
      (((e.calls.drop k).foldlM (FilterCall.apply registry (d.scope.over context)) v).map fun w => d.write w.text)
      (renderAll registry context [.output (e.resumed k name span)] (d.bind name v))
    rw [renderAll_singleton, hresumed]
    cases (e.calls.drop k).foldlM (FilterCall.apply registry (d.scope.over context)) v with
    | error fault => exact .error rfl
    | ok w => exact .ok ⟨v, w.text, rfl, rfl, rfl⟩

/-- The name is the one that the expression starts from and that an argument in front of the cut reads, and both the
scope and the caller bind it. -/
theorem related_named_intermediate_reused :
    let append : Filter := fun input args => .ok (.string (input.text ++ String.join (args.map Value.text)))
    let registry := Registry.empty.register "append" append
    let call (argument : String) : FilterCall := ⟨"append", ⟨0, 0⟩, [.path [.key argument] ⟨0, 0⟩]⟩
    let e : Filtered := ⟨.path [.key "x"] ⟨0, 0⟩, [call "x", call "y", call "z"]⟩
    let context : Context := ⟨[("x", .string "hidden"), ("y", .array [.boolean true, .nil])]⟩
    let d : Draft := ⟨⟨[("x", .string "a")]⟩, "> "⟩
    (∀ call ∈ e.calls.drop 1, "x" ∉ call.roots) ∧
      ((Node.output e).render registry context d).map Draft.output = .ok "> aatrue" ∧
      Related Eq
        (fun a a' => ∃ v text, (e.upTo 1).value registry (d.scope.over context) = .ok v ∧
          a = d.write text ∧ a' = (d.bind "x" v).write text)
        ((Node.output e).render registry context d)
        (renderAll registry context [.assign "x" (e.upTo 1), .output (e.resumed 1 "x" ⟨0, 1⟩)] d) := by
  intro append registry call e context d
  have hname : ∀ call ∈ e.calls.drop 1, "x" ∉ call.roots := by decide
  have hwritten : ((Node.output e).render registry context d).map Draft.output = .ok "> aatrue" := by decide +kernel
  exact ⟨hname, hwritten, related_named_intermediate registry context d e 1 "x" ⟨0, 1⟩ hname⟩

end Node

end TextTemplate
