import Mathlib.Data.List.Basic
import TextTemplate.Proofs.Outcome
import TextTemplate.Render.Expression

namespace TextTemplate

open Outcome (foldlM_map_mapError mapM_map_mapError bind_mapError)

namespace Segment

/-- The variable that a path starts from. -/
def root? : List Segment → Option String
  | key name :: _ => some name
  | index _ :: _ | [] => none

def renameRoot (f : String → String) : List Segment → List Segment
  | key name :: rest => key (f name) :: rest
  | index n :: rest => index n :: rest
  | [] => []

@[simp] theorem renameRoot_id (path : List Segment) : renameRoot id path = path := by
  cases path with
  | nil => rfl
  | cons segment rest => cases segment <;> rfl

theorem renameRoot_append (f : String → String) {path : List Segment} (h : path ≠ []) (more : List Segment) :
    renameRoot f (path ++ more) = renameRoot f path ++ more := by
  cases path with
  | nil => exact absurd rfl h
  | cons segment rest => cases segment <;> rfl

end Segment

namespace RenderError

/-- An error that tells a path tells the renamed one; no other error tells a name. -/
def rename (f : String → String) : RenderError → RenderError
  | cannotRead segment typeName path => cannotRead segment typeName (Segment.renameRoot f path)
  | e => e

@[simp] theorem rename_id (e : RenderError) : e.rename id = e := by
  cases e <;> simp [rename]

@[simp] theorem kind_rename (f : String → String) (e : RenderError) : (e.rename f).kind = e.kind := by
  cases e <;> rfl

end RenderError

/-- Whether two errors are of one kind. -/
def RenderError.SameKind (e e' : RenderError) : Prop :=
  e.kind = e'.kind

namespace Segment

theorem follow_rename (f : String → String) {passed : List Segment} (h : passed ≠ []) (v : Value)
    (rest : List Segment) :
    follow (renameRoot f passed) v rest = (follow passed v rest).mapError (RenderError.rename f) := by
  induction rest generalizing passed v with
  | nil => simp [follow, Except.mapError]
  | cons segment rest ih =>
    have hstep (w : Value) : follow (renameRoot f passed ++ [segment]) w rest =
        (follow (passed ++ [segment]) w rest).mapError (RenderError.rename f) := by
      rw [← renameRoot_append f h]
      exact ih (by simp) w
    cases v <;> cases segment <;> try rfl
    case object.key fields name =>
      simp only [follow]
      cases fields.lookup name with
      | none => rfl
      | some w => exact hstep w
    case array.index items n =>
      simp only [follow]
      cases items[n]? with
      | none => rfl
      | some w => exact hstep w

theorem resolve_rename {f : String → String} {names names' : Names} {path : List Segment}
    (h : ∀ name, root? path = some name → names name = names' (f name)) :
    resolve names' (renameRoot f path) = (resolve names path).mapError (RenderError.rename f) := by
  cases path with
  | nil => rfl
  | cons segment rest =>
    cases segment with
    | index n => rfl
    | key name =>
      simp only [renameRoot, resolve, h name rfl]
      cases names' (f name) with
      | none => rfl
      | some v => exact follow_rename f (List.cons_ne_nil (key name) []) v rest

end Segment

namespace Primary

def root? : Primary → Option String
  | literal _ _ => none
  | path segments _ => Segment.root? segments

def rename (f : String → String) : Primary → Primary
  | literal value span => literal value span
  | path segments span => path (Segment.renameRoot f segments) span

@[simp] theorem rename_id (p : Primary) : p.rename id = p := by
  cases p <;> simp [rename]

theorem value_rename {f : String → String} {names names' : Names} {p : Primary}
    (h : ∀ name, p.root? = some name → names name = names' (f name)) :
    (p.rename f).value names' = (p.value names).mapError (RenderError.rename f) := by
  cases p with
  | literal value span => rfl
  | path segments span => exact Segment.resolve_rename h

end Primary

namespace FilterCall

def roots (call : FilterCall) : List String :=
  call.args.filterMap Primary.root?

def rename (f : String → String) (call : FilterCall) : FilterCall :=
  { call with args := call.args.map (Primary.rename f) }

@[simp] theorem rename_id (call : FilterCall) : call.rename id = call := by
  have hid : Primary.rename id = id := funext Primary.rename_id
  simp [rename, hid]

theorem apply_rename {f : String → String} {names names' : Names} {r r' : Registry} {call : FilterCall}
    (hnames : ∀ name ∈ call.roots, names name = names' (f name))
    (hfilter : r.get? call.name = r'.get? call.name) (v : Value) :
    (call.rename f).apply r' names' v = (call.apply r names v).mapError (RenderError.rename f) := by
  have hargs : (call.args.map (Primary.rename f)).mapM (Primary.value names') =
      (call.args.mapM (Primary.value names)).mapError (RenderError.rename f) := by
    refine mapM_map_mapError ?_
    intro arg harg
    exact Primary.value_rename fun name hname => hnames name (List.mem_filterMap.mpr ⟨arg, harg, hname⟩)
  simp only [apply, rename, hfilter, hargs]
  cases r'.get? call.name with
  | none => rfl
  | some filter =>
    simp only [bind_mapError]
    congr 1
    funext args
    cases filter v args <;> rfl

end FilterCall

namespace Filtered

/-- The expression that is a name and nothing else. -/
def ofName (name : String) : Filtered :=
  ⟨.path [.key name] ⟨0, name.utf8ByteSize⟩, []⟩

/-- The variables that an expression reads. -/
def roots (e : Filtered) : List String :=
  e.base.root?.toList ++ e.calls.flatMap FilterCall.roots

def filterNames (e : Filtered) : List String :=
  e.calls.map (·.name)

def rename (f : String → String) (e : Filtered) : Filtered :=
  ⟨e.base.rename f, e.calls.map (FilterCall.rename f)⟩

@[simp] theorem rename_id (e : Filtered) : e.rename id = e := by
  have hid : FilterCall.rename id = id := funext FilterCall.rename_id
  simp [rename, hid]

/-- Where the renamed names stand for what the old ones stood for, a renamed expression has the value that the
expression has, or fails with the renamed error. -/
theorem value_rename {f : String → String} {names names' : Names} {r r' : Registry} {e : Filtered}
    (hnames : ∀ name ∈ e.roots, names name = names' (f name))
    (hfilters : ∀ name ∈ e.filterNames, r.get? name = r'.get? name) :
    (e.rename f).value r' names' = (e.value r names).mapError (RenderError.rename f) := by
  have hbase : (e.base.rename f).value names' = (e.base.value names).mapError (RenderError.rename f) :=
    Primary.value_rename fun name hname => hnames name (List.mem_append_left _ (Option.mem_toList.mpr hname))
  have hcalls (v : Value) : (e.calls.map (FilterCall.rename f)).foldlM (FilterCall.apply r' names') v =
      (e.calls.foldlM (FilterCall.apply r names) v).mapError (RenderError.rename f) := by
    refine foldlM_map_mapError ?_ v
    intro w call hcall
    refine FilterCall.apply_rename ?_ (hfilters call.name (List.mem_map_of_mem hcall)) w
    intro name hname
    exact hnames name (List.mem_append_right _ (List.mem_flatMap.mpr ⟨call, hcall, hname⟩))
  simp only [value, rename, hbase, hcalls, bind_mapError]

end Filtered

namespace Condition

def operands : Condition → List Filtered
  | holds e => [e]
  | compares _ left right => [left, right]

def rename (f : String → String) : Condition → Condition
  | holds e => holds (e.rename f)
  | compares op left right => compares op (left.rename f) (right.rename f)

@[simp] theorem rename_id (c : Condition) : c.rename id = c := by
  cases c <;> simp [rename]

end Condition

theorem Value.rename_compares (f : String → String) (op : CompareOp) (a b : Value) :
    (Value.compares op a b).mapError (RenderError.rename f) = Value.compares op a b := by
  have horder : (order? op a b).mapError (RenderError.rename f) = order? op a b := by
    unfold order?
    split
    · rfl
    · split <;> rfl
  cases op with
  | eq | ne => rfl
  | lt | gt | le | ge =>
    simp only [compares, bind_mapError, horder]
    rfl

theorem Condition.value_rename {f : String → String} {names names' : Names} {r r' : Registry} {c : Condition}
    (hnames : ∀ e ∈ c.operands, ∀ name ∈ e.roots, names name = names' (f name))
    (hfilters : ∀ e ∈ c.operands, ∀ name ∈ e.filterNames, r.get? name = r'.get? name) :
    (c.rename f).value r' names' = (c.value r names).mapError (RenderError.rename f) := by
  have hoperand (e : Filtered) (he : e ∈ c.operands) :
      (e.rename f).value r' names' = (e.value r names).mapError (RenderError.rename f) :=
    Filtered.value_rename (hnames e he) (hfilters e he)
  cases c with
  | holds e => exact hoperand e List.mem_cons_self
  | compares op left right =>
    simp only [value, rename, hoperand left (by simp [operands]), hoperand right (by simp [operands]),
      bind_mapError, Value.rename_compares]
    rfl

end TextTemplate
