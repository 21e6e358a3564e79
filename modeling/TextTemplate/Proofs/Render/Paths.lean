import TextTemplate.Proofs.Render.Alike

namespace TextTemplate

open Outcome (Related bind_eq_ok_iff)

/-- The same segment cannot be read of a value of the same type, once behind one path and once behind another. -/
def RenderError.Moved (passed passed' : List Segment) (e e' : RenderError) : Prop :=
  ∃ segment typeName behind, e = .cannotRead segment typeName (passed ++ behind) ∧
    e' = .cannotRead segment typeName (passed' ++ behind)

namespace Segment

/-- What one segment reads of a value. Nil stands for what is missing, and of nil any segment reads nil. -/
inductive Reads : Value → Segment → Value → Prop
  | nil (segment : Segment) : Reads .nil segment .nil
  | field (fields : List (String × Value)) (name : String) :
    Reads (.object fields) (key name) ((fields.lookup name).getD .nil)
  | element (items : List Value) (n : Nat) : Reads (.array items) (index n) (items[n]?.getD .nil)

/-- A value other than nil and a segment that are neither an object and a key nor an array and an index. -/
structure Mismatch (v : Value) (segment : Segment) : Prop where
  not_nil : v ≠ .nil
  not_field : ∀ fields name, ¬ (v = .object fields ∧ segment = key name)
  not_element : ∀ items n, ¬ (v = .array items ∧ segment = index n)

theorem exists_reads_or_mismatch (v : Value) (segment : Segment) : (∃ w, Reads v segment w) ∨ Mismatch v segment := by
  cases v with
  | nil => exact .inl ⟨_, .nil segment⟩
  | object fields =>
    cases segment with
    | key name => exact .inl ⟨_, .field fields name⟩
    | index n => exact .inr ⟨nofun, nofun, nofun⟩
  | array items =>
    cases segment with
    | key name => exact .inr ⟨nofun, nofun, nofun⟩
    | index n => exact .inl ⟨_, .element items n⟩
  | boolean | number | string | date => exact .inr ⟨nofun, nofun, nofun⟩

theorem follow_nil (passed path : List Segment) : follow passed .nil path = .ok .nil := by
  cases path <;> rfl

theorem follow_of_reads {v w : Value} {segment : Segment} (h : Reads v segment w) (passed rest : List Segment) :
    follow passed v (segment :: rest) = follow (passed ++ [segment]) w rest := by
  cases h with
  | nil => rw [follow_nil, follow_nil]
  | field fields name =>
    rw [follow]
    cases fields.lookup name with
    | none => rw [Option.getD_none, follow_nil]
    | some w => rfl
  | element items n =>
    rw [follow]
    cases items[n]? with
    | none => rw [Option.getD_none, follow_nil]
    | some w => rfl

theorem follow_of_mismatch {v : Value} {segment : Segment} (h : Mismatch v segment) (passed rest : List Segment) :
    follow passed v (segment :: rest) = .error (.cannotRead segment v.typeName passed) := by
  cases v with
  | nil => exact absurd rfl h.not_nil
  | object fields =>
    cases segment with
    | key name => exact absurd ⟨rfl, rfl⟩ (h.not_field fields name)
    | index n => rfl
  | array items =>
    cases segment with
    | key name => rfl
    | index n => exact absurd ⟨rfl, rfl⟩ (h.not_element items n)
  | boolean | number | string | date => rfl

/-- Reading on in two stretches. -/
theorem follow_append (passed : List Segment) (v : Value) (front rest : List Segment) :
    follow passed v (front ++ rest) = follow passed v front >>= fun w => follow (passed ++ front) w rest := by
  induction front generalizing passed v with
  | nil =>
    rw [List.nil_append, List.append_nil, follow]
    rfl
  | cons segment front ih =>
    rw [List.cons_append]
    obtain ⟨w, hreads⟩ | hmismatch := exists_reads_or_mismatch v segment
    · rw [follow_of_reads hreads, follow_of_reads hreads, ih, List.append_assoc, List.singleton_append]
    · rw [follow_of_mismatch hmismatch, follow_of_mismatch hmismatch]
      rfl

/-- What was passed on the way to a value shows in errors only. -/
theorem related_follow (passed passed' : List Segment) (v : Value) (path : List Segment) :
    Related (RenderError.Moved passed passed') Eq (follow passed v path) (follow passed' v path) := by
  suffices h : ∀ behind, Related (RenderError.Moved passed passed') Eq (follow (passed ++ behind) v path)
      (follow (passed' ++ behind) v path) by
    simpa only [List.append_nil] using h []
  induction path generalizing v with
  | nil =>
    intro behind
    rw [follow, follow]
    exact .ok rfl
  | cons segment path ih =>
    intro behind
    obtain ⟨w, hreads⟩ | hmismatch := exists_reads_or_mismatch v segment
    · rw [follow_of_reads hreads, follow_of_reads hreads, List.append_assoc, List.append_assoc]
      exact ih w (behind ++ [segment])
    · rw [follow_of_mismatch hmismatch, follow_of_mismatch hmismatch]
      exact .error ⟨segment, v.typeName, behind, rfl, rfl⟩

/-- Reading on fails in front of the first segment that does not go with its value. -/
theorem exists_of_follow_eq_error {passed path : List Segment} {v : Value} {e : RenderError}
    (h : follow passed v path = .error e) :
    ∃ front segment rest w, path = front ++ segment :: rest ∧ follow passed v front = .ok w ∧ Mismatch w segment ∧
      e = .cannotRead segment w.typeName (passed ++ front) := by
  induction path generalizing passed v with
  | nil => cases h
  | cons segment path ih =>
    obtain ⟨w, hreads⟩ | hmismatch := exists_reads_or_mismatch v segment
    · rw [follow_of_reads hreads] at h
      obtain ⟨front, later, rest, w', rfl, hfront, hlater, rfl⟩ := ih h
      refine ⟨segment :: front, later, rest, w', rfl, ?_, hlater, ?_⟩
      · rw [follow_of_reads hreads, hfront]
      · rw [List.append_assoc, List.singleton_append]
    · rw [follow_of_mismatch hmismatch] at h
      cases h
      refine ⟨[], segment, path, v, rfl, rfl, hmismatch, ?_⟩
      rw [List.append_nil]

section

variable {names : Names} {root : String} {front rest path : List Segment} {v : Value}

/-- A name that stands for nothing is as good as one that stands for nil. -/
theorem resolve_key (names : Names) (root : String) (path : List Segment) :
    resolve names (key root :: path) = follow [key root] ((names root).getD .nil) path := by
  rw [resolve]
  cases names root with
  | none => rw [Option.getD_none, follow_nil]
  | some v => rfl

theorem resolve_append (names : Names) (root : String) (front rest : List Segment) :
    resolve names (key root :: (front ++ rest)) =
      resolve names (key root :: front) >>= fun v => follow (key root :: front) v rest := by
  rw [resolve_key, resolve_key, follow_append]
  rfl

theorem resolve_append_of_ok (h : resolve names (key root :: front) = .ok v) (rest : List Segment) :
    resolve names (key root :: (front ++ rest)) = follow (key root :: front) v rest := by
  rw [resolve_append, h]
  rfl

/-- A front of the path leads to a value that does not go with the segment behind it. -/
structure Stuck (names : Names) (path front : List Segment) (segment : Segment) (v : Value) : Prop where
  ahead : front ++ [segment] <+: path
  resolve_eq : resolve names front = .ok v
  mismatch : Mismatch v segment

/-- Only behind a front that begins with a key stands a value that is not nil. -/
theorem Stuck.exists_eq {segment : Segment} (h : Stuck names (key root :: path) front segment v) :
    ∃ passed rest, front = key root :: passed ∧ path = passed ++ segment :: rest := by
  obtain ⟨rest, hrest⟩ := h.ahead
  rw [List.append_assoc, List.singleton_append] at hrest
  cases front with
  | nil =>
    have hnil : v = .nil := (Except.ok.inj h.resolve_eq).symm
    exact absurd hnil h.mismatch.not_nil
  | cons first passed =>
    rw [List.cons_append, List.cons.injEq] at hrest
    exact ⟨passed, rest, by rw [hrest.1], hrest.2.symm⟩

theorem Stuck.resolve_eq_error {segment : Segment} (h : Stuck names (key root :: path) front segment v) :
    resolve names (key root :: path) = .error (.cannotRead segment v.typeName front) := by
  obtain ⟨passed, rest, rfl, rfl⟩ := h.exists_eq
  rw [resolve_append_of_ok h.resolve_eq, follow_of_mismatch h.mismatch]

theorem exists_stuck_of_resolve_eq_error {e : RenderError} (h : resolve names (key root :: path) = .error e) :
    ∃ front segment v, Stuck names (key root :: path) front segment v ∧
      e = .cannotRead segment v.typeName front := by
  rw [resolve_key] at h
  obtain ⟨front, segment, rest, v, rfl, hfront, hmismatch, rfl⟩ := exists_of_follow_eq_error h
  have hahead : (key root :: front) ++ [segment] <+: key root :: (front ++ segment :: rest) := by
    refine ⟨rest, ?_⟩
    simp
  refine ⟨key root :: front, segment, v, ⟨hahead, ?_, hmismatch⟩, rfl⟩
  rw [resolve_key, hfront]

/-- Behind a front that leads to a value, the path cannot have been stuck before. -/
theorem Stuck.length_le {front' : List Segment} {segment segment' : Segment} {v' : Value}
    (h : Stuck names (key root :: path) front segment v) (h' : Stuck names (key root :: path) front' segment' v') :
    front.length ≤ front'.length := by
  by_contra hlonger
  have hlonger : front' ++ [segment'] <+: front := by
    refine List.prefix_of_prefix_length_le h'.ahead ((List.prefix_append front [segment]).trans h.ahead) ?_
    simp only [List.length_append, List.length_singleton]
    omega
  obtain ⟨passed, rest, rfl, -⟩ := h.exists_eq
  have hshorter : Stuck names (key root :: passed) front' segment' v' := ⟨hlonger, h'.resolve_eq, h'.mismatch⟩
  have hok := h.resolve_eq
  rw [hshorter.resolve_eq_error] at hok
  cases hok

/-- A path that comes to nothing: its name is unbound, an object lacks the field, the place is beyond the end of an
array, or nil is what stands there. -/
inductive Vacant (names : Names) : List Segment → Prop
  | unbound {root : String} (h : names root = none) : Vacant names [key root]
  | missing {front : List Segment} {fields : List (String × Value)} {name : String}
    (h : resolve names front = .ok (.object fields)) (hname : fields.lookup name = none) :
    Vacant names (front ++ [key name])
  | beyond {front : List Segment} {items : List Value} {n : Nat} (h : resolve names front = .ok (.array items))
    (hn : items.length ≤ n) : Vacant names (front ++ [index n])
  | nil {path : List Segment} (h : resolve names path = .ok .nil) : Vacant names path

/-- One more segment is read of the value that the path leads to. -/
theorem resolve_concat {w : Value} {segment : Segment} (h : resolve names front = .ok v) (hreads : Reads v segment w)
    (hv : v ≠ .nil) : resolve names (front ++ [segment]) = .ok w := by
  match front with
  | [] | index _ :: _ =>
    cases h
    exact absurd rfl hv
  | key root :: front =>
    rw [List.cons_append, resolve_append_of_ok h, follow_of_reads hreads, follow]

theorem Vacant.resolve_eq {path : List Segment} (h : Vacant names path) : resolve names path = .ok .nil := by
  cases h with
  | unbound hroot => rw [resolve_key, hroot, Option.getD_none, follow_nil]
  | @missing front fields name hfront hname =>
    have hreads := Reads.field fields name
    rw [hname] at hreads
    exact resolve_concat hfront hreads nofun
  | @beyond front items n hfront hn =>
    have hreads := Reads.element items n
    rw [List.getElem?_eq_none hn] at hreads
    exact resolve_concat hfront hreads nofun
  | nil hnil => exact hnil

end

/-- A path goes like its rest from where its front leads. It fails exactly if some front is stuck, with an error that
names the shortest such front, and behind nothing everything is nil. -/
theorem resolve_composes (s : Scope) (c : Context) (root : String) (path : List Segment) :
    (∀ front rest, path = front ++ rest →
      (∀ v, resolve (s.over c) (key root :: front) = .ok v → ∀ t,
        Related (RenderError.Moved (key root :: front) [key t]) Eq (resolve (s.over c) (key root :: path))
          (resolve ((s.set t v).over c) (key t :: rest))) ∧
      ∀ e, resolve (s.over c) (key root :: front) = .error e → resolve (s.over c) (key root :: path) = .error e) ∧
    ((∃ e, resolve (s.over c) (key root :: path) = .error e) ↔
      ∃ front segment v, Stuck (s.over c) (key root :: path) front segment v) ∧
    (∀ e, resolve (s.over c) (key root :: path) = .error e →
      ∃ front segment v, Stuck (s.over c) (key root :: path) front segment v ∧
        (∀ front' segment' v', Stuck (s.over c) (key root :: path) front' segment' v' →
          front.length ≤ front'.length) ∧
        e = .cannotRead segment v.typeName front ∧ e.kind = .typeMismatch ∧
        e.message = "Type mismatch: cannot read " ++ segment.describe ++ " of " ++ v.typeName ++ " '" ++
          pathText front ++ "'") ∧
    ∀ front rest, path = front ++ rest → Vacant (s.over c) (key root :: front) →
      resolve (s.over c) (key root :: path) = .ok .nil := by
  refine ⟨?_, ⟨?_, ?_⟩, ?_, ?_⟩
  · rintro front rest rfl
    refine ⟨?_, ?_⟩
    · intro v hv t
      have hbound : (s.set t v).over c t = some v := Scope.over_set_self s c t v
      rw [resolve_append_of_ok hv, resolve_key, hbound, Option.getD_some]
      exact related_follow (key root :: front) [key t] v rest
    · intro e he
      rw [resolve_append, he]
      rfl
  · rintro ⟨e, he⟩
    obtain ⟨front, segment, v, hstuck, -⟩ := exists_stuck_of_resolve_eq_error he
    exact ⟨front, segment, v, hstuck⟩
  · rintro ⟨front, segment, v, hstuck⟩
    exact ⟨_, hstuck.resolve_eq_error⟩
  · intro e he
    obtain ⟨front, segment, v, hstuck, rfl⟩ := exists_stuck_of_resolve_eq_error he
    exact ⟨front, segment, v, hstuck, fun _ _ _ => hstuck.length_le, rfl, rfl, rfl⟩
  · rintro front rest rfl hvacant
    rw [resolve_append_of_ok hvacant.resolve_eq, follow_nil]

/-- The scope hides the caller's binding, the second element of the array is missing, and a name is no object. -/
theorem resolve_composes_nested :
    let row : Value := .object [("name", .string "one"), ("note", .nil)]
    let s : Scope := ⟨[("rows", .array [row])]⟩
    let c : Context := ⟨[("rows", .boolean true)]⟩
    let path : List Segment := [index 0, key "name", key "first", index 2]
    let error : RenderError := .cannotRead (key "first") "string" [key "rows", index 0, key "name"]
    resolve (s.over c) [key "rows", index 0] = .ok row ∧ resolve (s.over c) (key "rows" :: path) = .error error ∧
      Related (RenderError.Moved [key "rows", index 0] [key "row"]) Eq (resolve (s.over c) (key "rows" :: path))
        (resolve ((s.set "row" row).over c) [key "row", key "name", key "first", index 2]) ∧
      (∃ front segment v, Stuck (s.over c) (key "rows" :: path) front segment v) ∧
      error.message = "Type mismatch: cannot read key 'first' of string 'rows[0].name'" ∧
      Vacant (s.over c) [key "rows", index 1] ∧
      resolve (s.over c) [key "rows", index 1, key "note", index 3] = .ok .nil := by
  intro row s c path error
  have hfront : resolve (s.over c) [key "rows", index 0] = .ok row := rfl
  have herror : resolve (s.over c) (key "rows" :: path) = .error error := rfl
  have hmessage : error.message = "Type mismatch: cannot read key 'first' of string 'rows[0].name'" := by
    decide +kernel
  have hbeyond : Vacant (s.over c) [key "rows", index 1] := by
    have hrows : resolve (s.over c) [key "rows"] = .ok (.array [row]) := rfl
    exact .beyond hrows (Nat.le_refl 1)
  have hcut := resolve_composes s c "rows" path
  have hvacant := resolve_composes s c "rows" [index 1, key "note", index 3]
  exact ⟨hfront, herror, (hcut.1 [index 0] _ rfl).1 row hfront "row", hcut.2.1.mp ⟨error, herror⟩, hmessage, hbeyond,
    hvacant.2.2.2 [index 1] _ rfl hbeyond⟩

end Segment

end TextTemplate
