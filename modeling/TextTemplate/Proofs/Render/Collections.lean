import TextTemplate.Filter.Builtin
import TextTemplate.Proofs.Render.Branches
import TextTemplate.Proofs.Render.Unrolling

namespace TextTemplate

open Outcome (Related)

/-- An element that can have fields: an object, or nil, which has none. -/
inductive Value.IsRow : Value → Prop
  | nil : IsRow .nil
  | object {fields : List (String × Value)} : IsRow (.object fields)

/-- Nil, or an array of objects and nils. -/
inductive Value.IsTable : Value → Prop
  | nil : IsTable .nil
  | array {items : List Value} (h : ∀ item ∈ items, item.IsRow) : IsTable (.array items)

/-- The filters on collections find the rows of a table. -/
theorem Value.IsTable.exists_rows {v : Value} (h : v.IsTable) :
    ∃ items, (∀ name, Filter.elements name v = .ok items) ∧ ∀ item ∈ items, item.IsRow := by
  cases h with
  | nil => exact ⟨[], fun _ => rfl, nofun⟩
  | @array items hrows => exact ⟨items, fun _ => rfl, hrows⟩

/-- The field of that name, or nil. -/
def Value.fieldOrNil (v : Value) (name : String) : Value :=
  (v.field? name).getD .nil

/-- Whether the value has a field of that name and equals the target with it. -/
def Value.fieldEquals (v : Value) (name : String) (target : Value) : Bool :=
  (v.field? name).any fun field => field.looseEq target

namespace FilterCall

/-- `map: "f"` -/
def mapField (field : String) (nameSpan fieldSpan : Span) : FilterCall :=
  ⟨"map", nameSpan, [.literal (.string field) fieldSpan]⟩

/-- `where: "f", t` -/
def whereField (field : String) (target : Literal) (nameSpan fieldSpan targetSpan : Span) : FilterCall :=
  ⟨"where", nameSpan, [.literal (.string field) fieldSpan, .literal target targetSpan]⟩

end FilterCall

namespace Filtered

def ofPath (path : List Segment) (span : Span) : Filtered :=
  ⟨.path path span, []⟩

def ofLiteral (literal : Literal) (span : Span) : Filtered :=
  ⟨.literal literal span, []⟩

/-- The expression sent through one more filter. -/
def through (e : Filtered) (call : FilterCall) : Filtered :=
  ⟨e.base, e.calls ++ [call]⟩

variable {registry : Registry} {names : Names} {e : Filtered} {v item : Value} {items : List Value} {x field : String}

theorem value_through (h : e.value registry names = .ok v) (call : FilterCall) :
    (e.through call).value registry names = call.apply registry names v := by
  have hcalls : (e.through call).value registry names =
      e.value registry names >>= fun v => [call].foldlM (FilterCall.apply registry names) v := by
    simp only [value, through, List.foldlM_append, bind_assoc]
  rw [hcalls, h]
  change call.apply registry names v >>= pure = _
  exact bind_pure _

theorem value_ofPath (hx : names x = some item) (rest : List Segment) (span : Span) :
    (ofPath (.key x :: rest) span).value registry names = Segment.follow [.key x] item rest := by
  simp only [value, ofPath, Primary.value, Segment.resolve, hx]
  exact bind_pure _

theorem value_name (hx : names x = some item) (span : Span) :
    (ofPath [.key x] span).value registry names = .ok item := by
  rw [value_ofPath hx, Segment.follow]

/-- A path reads a field of an element as filters do. -/
theorem value_field (hx : names x = some item) (hitem : item.IsRow) (span : Span) :
    (ofPath [.key x, .key field] span).value registry names = .ok (item.fieldOrNil field) := by
  rw [value_ofPath hx]
  cases hitem with
  | nil => rfl
  | @object fields =>
    simp only [Segment.follow, Value.fieldOrNil, Value.field?]
    cases fields.lookup field <;> rfl

theorem value_literal (literal : Literal) (span : Span) :
    (ofLiteral literal span).value registry names = .ok literal.value := rfl

end Filtered

/-- A test of a field is true of the elements that `where` keeps. -/
theorem Condition.value_field_eq {registry : Registry} {names : Names} {item : Value} {x field : String}
    {target : Literal} (hx : names x = some item) (hitem : item.IsRow) (htarget : target ≠ .nil) (s s' : Span) :
    (Condition.compares .eq (.ofPath [.key x, .key field] s) (.ofLiteral target s')).value registry names =
      .ok (.boolean (item.fieldEquals field target.value)) := by
  have hmissing : Value.nil.looseEq target.value = false := by
    cases target with
    | nil => exact absurd rfl htarget
    | boolean | number | string => rfl
  have hequal : (item.fieldOrNil field).looseEq target.value = item.fieldEquals field target.value := by
    unfold Value.fieldOrNil Value.fieldEquals
    cases item.field? field with
    | none => exact hmissing
    | some v => rfl
  rw [value, Filtered.value_field hx hitem, Filtered.value_literal, ← hequal]
  rfl

section

variable {registry : Registry} {names : Names} {v : Value} {items : List Value} {field : String}

theorem FilterCall.apply_mapField (h : registry.get? "map" = some Filter.map)
    (hitems : Filter.elements "map" v = .ok items) (s s' : Span) :
    (mapField field s s').apply registry names v = .ok (.array (items.map fun item => item.fieldOrNil field)) := by
  have hfilter : Filter.map v [.string field] = .ok (.array (items.map fun item => item.fieldOrNil field)) := by
    simp only [Filter.map, Filter.withArgument, hitems]
    rfl
  simp only [apply, mapField, h]
  change (Filter.map v [.string field]).mapError _ = _
  rw [hfilter]
  rfl

theorem FilterCall.apply_whereField (h : registry.get? "where" = some Filter.whereEqual)
    (hitems : Filter.elements "where" v = .ok items) (target : Literal) (s s' s'' : Span) :
    (whereField field target s s' s'').apply registry names v =
      .ok (.array (items.filter fun item => item.fieldEquals field target.value)) := by
  have hfilter : Filter.whereEqual v [.string field, target.value] =
      .ok (.array (items.filter fun item => item.fieldEquals field target.value)) := by
    simp only [Filter.whereEqual, Filter.withTwoArguments, hitems]
    refine congrArg (fun kept => Except.ok (Value.array kept)) (List.filter_congr ?_)
    intro item _
    rw [Value.fieldEquals]
    cases hfield : item.field? field with
    | none => simp only [Value.text, hfield, Option.any_none]
    | some v => simp only [Value.text, hfield, Option.any_some]
  simp only [apply, whereField, h]
  change (Filter.whereEqual v [.string field, target.value]).mapError _ = _
  rw [hfilter]
  rfl

end

namespace Node

variable {registry : Registry} {context : Context} {d : Draft} {x : String} {e shown : Filtered} {v : Value}
  {items : List Value}

/-- A loop runs over what the filters on collections take for the elements of a value. -/
theorem related_loop_of_elements {name : String} (hv : e.value registry (d.scope.over context) = .ok v)
    (hitems : Filter.elements name v = .ok items) (body : List Node) :
    Related Eq (Draft.SameOn Set.univ) ((Node.loop x e body).render registry context d)
      ((items.foldlM (fun d item => renderAll registry context body (d.bind x item)) d).map
        (·.restore x (d.scope.get? x))) := by
  cases v with
  | array items =>
    cases hitems
    rw [render_loop_of_array hv]
    cases (items.foldlM (fun d item => renderAll registry context body (d.bind x item)) d).map
        (·.restore x (d.scope.get? x)) with
    | ok a => exact .ok (.refl _ a)
    | error fault => exact .error rfl
  | nil =>
    cases hitems
    have hloop : (Node.loop x e body).render registry context d = .ok d := by
      rw [render, hv]
      rfl
    rw [hloop]
    exact .ok (Draft.SameOn.restore_self d x).symm
  | boolean | number | string | date | object => cases hitems

/-- Printing something of each element writes what the array of all that is printed as, and binds the loop variable
only. -/
theorem exists_foldlM_output {g : Value → Value}
    (hshown : ∀ item ∈ items, ∀ names : Names, names x = some item → shown.value registry names = .ok (g item)) :
    ∃ a, items.foldlM (fun d item => renderAll registry context [.output shown] (d.bind x item)) d = .ok a ∧
      a.SameOn {x}ᶜ (d.write (Value.array (items.map g)).text) := by
  induction items generalizing d with
  | nil =>
    have hnothing : d.write (Value.array []).text = d := congrArg (Draft.mk d.scope) String.append_empty
    refine ⟨d, rfl, ?_⟩
    rw [List.map_nil, hnothing]
    exact .refl _ d
  | cons item items ih =>
    have hbound : (d.bind x item).scope.over context x = some item := Scope.over_set_self d.scope context x item
    have hfirst : renderAll registry context [.output shown] (d.bind x item) =
        .ok ((d.bind x item).write (g item).text) := by
      rw [renderAll_singleton, render_output, hshown item List.mem_cons_self _ hbound]
      rfl
    have hlater : ∀ later ∈ items, ∀ names : Names, names x = some later →
        shown.value registry names = .ok (g later) := by
      intro later hmem
      exact hshown later (List.mem_cons_of_mem item hmem)
    obtain ⟨a, ha, hsame⟩ := ih (d := (d.bind x item).write (g item).text) hlater
    refine ⟨a, ?_, hsame.trans ?_⟩
    · rw [List.foldlM_cons, hfirst]
      exact ha
    · have htext : (Value.array ((item :: items).map g)).text =
          (g item).text ++ (Value.array (items.map g)).text := rfl
      have hstart := ((Draft.SameOn.bind_left d x item).write (g item).text).write (Value.array (items.map g)).text
      refine ⟨?_, hstart.binding⟩
      rw [htext, hstart.output, Draft.output_write, Draft.output_write, Draft.output_write, String.append_assoc]

/-- A loop that prints something of each element goes like the output of the array of all that. -/
theorem exists_render_loop_output {name : String} {g : Value → Value}
    (hv : e.value registry (d.scope.over context) = .ok v) (hitems : Filter.elements name v = .ok items)
    (hshown : ∀ item ∈ items, ∀ names : Names, names x = some item → shown.value registry names = .ok (g item)) :
    ∃ a, (Node.loop x e [.output shown]).render registry context d = .ok a ∧
      a.SameOn Set.univ (d.write (Value.array (items.map g)).text) := by
  obtain ⟨b, hb, hsame⟩ := exists_foldlM_output (d := d) hshown
  have hloop : Related Eq (Draft.SameOn Set.univ) ((Node.loop x e [.output shown]).render registry context d)
      (.ok (b.restore x (d.scope.get? x))) := by
    have h := related_loop_of_elements (x := x) hv hitems [.output shown]
    rw [hb] at h
    exact h
  obtain ⟨a, ha, hab⟩ := hloop.exists_of_ok_right
  have hgiven : ((d.write (Value.array (items.map g)).text).restore x (d.scope.get? x)).SameOn Set.univ
      (d.write (Value.array (items.map g)).text) := .restore_self _ x
  exact ⟨a, ha, (hab.trans (hsame.restore_both d)).trans hgiven⟩

/-- One pass over an element, with the body in a test that is true of the elements kept, goes like the body on these and
leaves the others out. -/
theorem related_pass_tested {condition : Condition} {keeps : Value → Bool} {item : Value} {a a' : Draft}
    (hcondition : ∀ names : Names, names x = some item →
      condition.value registry names = .ok (.boolean (keeps item)))
    (h : a.SameOn {x}ᶜ a') (body : List Node) :
    Related Eq (Draft.SameOn {x}ᶜ)
      (renderAll registry context [.conditional (.test condition body .stop)] (a.bind x item))
      (if keeps item = true then renderAll registry context body (a'.bind x item) else pure a') := by
  have hbound : (a.bind x item).scope.over context x = some item := Scope.over_set_self a.scope context x item
  have hvalue := hcondition _ hbound
  rw [renderAll_singleton, render]
  cases hkeeps : keeps item with
  | true =>
    rw [hkeeps] at hvalue
    rw [Chain.render_test_of_true hvalue rfl, if_pos rfl]
    have hall : ∀ name ∈ freeAll body, name ∈ insert x ({x}ᶜ : Set String) :=
      fun name _ => Classical.em (name = x)
    refine (related_renderAll_of_sameOn body hall (h.bind x item)).mono ?_
    exact fun _ _ _ _ hsame => hsame.mono (Set.subset_insert x _)
  | false =>
    rw [hkeeps] at hvalue
    rw [Chain.render_test_of_untrue hvalue rfl, if_neg Bool.false_ne_true, Chain.render]
    exact .ok ((Draft.SameOn.bind_left a x item).trans h)

/-- A loop with its body in a test of the elements goes like the loop over those of which the test is true. -/
theorem related_loop_tested {name : String} {condition : Condition} {keeps : Value → Bool} {kept : Filtered}
    (hv : e.value registry (d.scope.over context) = .ok v) (hitems : Filter.elements name v = .ok items)
    (hkept : kept.value registry (d.scope.over context) = .ok (.array (items.filter keeps)))
    (hcondition : ∀ item ∈ items, ∀ names : Names, names x = some item →
      condition.value registry names = .ok (.boolean (keeps item)))
    (body : List Node) :
    Related Eq (Draft.SameOn Set.univ)
      ((Node.loop x e [.conditional (.test condition body .stop)]).render registry context d)
      ((Node.loop x kept body).render registry context d) := by
  have hpasses : Related Eq (Draft.SameOn {x}ᶜ)
      (items.foldlM (fun d item =>
        renderAll registry context [.conditional (.test condition body .stop)] (d.bind x item)) d)
      ((items.filter keeps).foldlM (fun d item => renderAll registry context body (d.bind x item)) d) := by
    rw [List.foldlM_filter]
    refine Related.foldlM_of_mem ?_ (.refl _ d)
    intro item hitem a a' h
    exact related_pass_tested (hcondition item hitem) h body
  rw [render_loop_of_array hkept]
  refine (related_loop_of_elements hv hitems _).trans (hpasses.map ?_) fun _ _ _ => .trans
  exact fun _ _ h => h.restore_both d

/-- An array is printed as a loop over it prints it, `map` prints what a loop prints of a field, and a loop over what
`where` leaves goes like the loop over all that tests the field. -/
theorem loops_agree_with_filters {registry : Registry} (hmap : registry.get? "map" = some Filter.map)
    (hwhere : registry.get? "where" = some Filter.whereEqual) (context : Context) (d : Draft) (e : Filtered)
    (x field : String) (target : Literal) (body : List Node) (s s' n f t : Span) :
    (∀ items, e.value registry (d.scope.over context) = .ok (.array items) →
      ∃ a a', (loop x e [.output (.ofPath [.key x] s)]).render registry context d = .ok a ∧
        (output e).render registry context d = .ok a' ∧ a.SameOn Set.univ a') ∧
    ∀ v, e.value registry (d.scope.over context) = .ok v → v.IsTable →
      (∃ a a', (loop x e [.output (.ofPath [.key x, .key field] s)]).render registry context d = .ok a ∧
        (output (e.through (.mapField field n f))).render registry context d = .ok a' ∧ a.SameOn Set.univ a') ∧
      (target ≠ .nil →
        Related Eq (Draft.SameOn Set.univ)
          ((loop x e [.conditional
            (.test (.compares .eq (.ofPath [.key x, .key field] s) (.ofLiteral target s')) body .stop)]).render
            registry context d)
          ((loop x (e.through (.whereField field target n f t)) body).render registry context d)) := by
  refine ⟨?_, ?_⟩
  · intro items hv
    have helements : Filter.elements "map" (.array items) = .ok items := rfl
    obtain ⟨a, ha, hsame⟩ := exists_render_loop_output hv helements fun item _ names hx =>
      Filtered.value_name hx s
    rw [List.map_id'] at hsame
    refine ⟨a, _, ha, ?_, hsame⟩
    rw [render_output, hv]
    rfl
  · intro v hv htable
    obtain ⟨items, helements, hrows⟩ := htable.exists_rows
    refine ⟨?_, ?_⟩
    · obtain ⟨a, ha, hsame⟩ := exists_render_loop_output hv (helements "map") fun item hitem names hx =>
        Filtered.value_field hx (hrows item hitem) s
      refine ⟨a, _, ha, ?_, hsame⟩
      rw [render_output, Filtered.value_through hv, FilterCall.apply_mapField hmap (helements "map")]
      rfl
    · intro htarget
      have hkept : (e.through (.whereField field target n f t)).value registry (d.scope.over context) =
          .ok (.array (items.filter fun item => item.fieldEquals field target.value)) := by
        rw [Filtered.value_through hv, FilterCall.apply_whereField hwhere (helements "where")]
      exact related_loop_tested hv (helements "where") hkept (fun item hitem names hx =>
        Condition.value_field_eq hx (hrows item hitem) htarget s s') body

/-- Of the rows one is nil and one lacks the field, and the body assigns the loop variable and what it prints later. -/
theorem loops_agree_with_filters_reassigned :
    let now : Calendar.DateTime := ⟨⟨2024, 2, 29, by decide, by decide, by decide⟩, .midnight⟩
    let e : Filtered := .ofName "rows"
    let x : Filtered := .ofPath [.key "x"] ⟨0, 1⟩
    let name : Filtered := .ofPath [.key "x", .key "name"] ⟨0, 9⟩
    let kind : Filtered := .ofPath [.key "x", .key "kind"] ⟨0, 9⟩
    let body : List Node := [.output name, .assign "x" (.ofName "last"), .output x, .assign "last" (.ofName "mark")]
    let row (kind name : String) : Value := .object [("kind", .string kind), ("name", .string name)]
    let rows : Value :=
      .array [row "a" "one ", .nil, .object [("name", .string "two ")], row "b" "three ", row "a" "four "]
    let context : Context := ⟨[("rows", rows), ("mark", .string "!")]⟩
    let d : Draft := ⟨⟨[("x", .string "before")]⟩, ""⟩
    let named : Filtered := e.through (.mapField "name" ⟨2, 3⟩ ⟨4, 5⟩)
    let kept : Filtered := e.through (.whereField "kind" (.string "a") ⟨2, 3⟩ ⟨4, 5⟩ ⟨6, 7⟩)
    let tested : Node :=
      .conditional (.test (.compares .eq kind (.ofLiteral (.string "a") ⟨0, 0⟩)) body .stop)
    e.value (Registry.builtin now) (d.scope.over context) = .ok rows ∧ rows.IsTable ∧
      ((output named).render (Registry.builtin now) context d).map Draft.output = .ok "one two three four " ∧
      ((loop "x" kept body).render (Registry.builtin now) context d).map Draft.output = .ok "one four !" ∧
      (∃ a a', (loop "x" e [.output x]).render (Registry.builtin now) context d = .ok a ∧
        (output e).render (Registry.builtin now) context d = .ok a' ∧ a.SameOn Set.univ a') ∧
      (∃ a a', (loop "x" e [.output name]).render (Registry.builtin now) context d = .ok a ∧
        (output named).render (Registry.builtin now) context d = .ok a' ∧ a.SameOn Set.univ a') ∧
      Related Eq (Draft.SameOn Set.univ) ((loop "x" e [tested]).render (Registry.builtin now) context d)
        ((loop "x" kept body).render (Registry.builtin now) context d) := by
  intro now e x name kind body row rows context d named kept tested
  have hv : e.value (Registry.builtin now) (d.scope.over context) = .ok rows := rfl
  have htable : rows.IsTable := by
    refine .array ?_
    simp only [List.forall_mem_cons, List.not_mem_nil, false_imp_iff, implies_true, and_true]
    exact ⟨.object, .nil, .object, .object, .object⟩
  have hnamed : ((output named).render (Registry.builtin now) context d).map Draft.output =
      .ok "one two three four " := by decide +kernel
  have hkept : ((loop "x" kept body).render (Registry.builtin now) context d).map Draft.output = .ok "one four !" := by
    decide +kernel
  exact ⟨hv, htable, hnamed, hkept,
    (loops_agree_with_filters rfl rfl context d e "x" "kind" (.string "a") body ⟨0, 1⟩ ⟨0, 0⟩ ⟨0, 0⟩ ⟨0, 0⟩ ⟨0, 0⟩).1
      _ hv,
    ((loops_agree_with_filters rfl rfl context d e "x" "name" .nil body ⟨0, 9⟩ ⟨0, 0⟩ ⟨2, 3⟩ ⟨4, 5⟩ ⟨0, 0⟩).2 rows
      hv htable).1,
    ((loops_agree_with_filters rfl rfl context d e "x" "kind" (.string "a") body ⟨0, 9⟩ ⟨0, 0⟩ ⟨2, 3⟩ ⟨4, 5⟩
      ⟨6, 7⟩).2 rows hv htable).2 nofun⟩

end Node

end TextTemplate
