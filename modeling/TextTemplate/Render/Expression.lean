import TextTemplate.Context
import TextTemplate.Render.Error

namespace TextTemplate

/-- What names stand for. -/
abbrev Names := String → Option Value

/-- A template's own bindings hide those of the caller. -/
def Scope.over (s : Scope) (c : Context) : Names :=
  fun name => (s.get? name).or (c.get? name)

namespace Segment

/-- Reads on from a value. Nothing comes of nil, of a field that an object lacks, and of a place beyond the
end of an array. `passed` is the path to the value. -/
def follow (passed : List Segment) : Value → List Segment → Except RenderError Value
  | v, [] => .ok v
  | .nil, _ :: _ => .ok .nil
  | .object fields, key name :: rest =>
    match fields.lookup name with
    | some v => follow (passed ++ [key name]) v rest
    | none => .ok .nil
  | .array items, index n :: rest =>
    match items[n]? with
    | some v => follow (passed ++ [index n]) v rest
    | none => .ok .nil
  | v, segment :: _ => .error (.cannotRead segment v.typeName passed)

/-- The value at the end of a path. The first segment names a variable. -/
def resolve (names : Names) : List Segment → Except RenderError Value
  | key name :: rest =>
    match names name with
    | some v => follow [key name] v rest
    | none => .ok .nil
  | index _ :: _ | [] => .ok .nil

end Segment

def Literal.value : Literal → Value
  | nil => .nil
  | boolean b => .boolean b
  | number n => .number n
  | string s => .string s

def Primary.value (names : Names) : Primary → Except RenderError Value
  | literal l _ => .ok l.value
  | path segments _ => Segment.resolve names segments

namespace FilterCall

/-- Sends `v` through the filter. That the filter exists is found out before the arguments are read. -/
def apply (registry : Registry) (names : Names) (v : Value) (call : FilterCall) :
    Except RenderError Value :=
  match registry.get? call.name with
  | none => .error (.unknownFilter call.name)
  | some filter => do
    let args ← call.args.mapM (Primary.value names)
    (filter v args).mapError (.inFilter call.name)

end FilterCall

def Filtered.value (registry : Registry) (names : Names) (e : Filtered) : Except RenderError Value := do
  let v ← e.base.value names
  e.calls.foldlM (FilterCall.apply registry names) v

namespace Value

/-- The order of two dates or of two values that are numbers; a string that writes a number is one. Beside
what is not a number there is no order, but no failure either. -/
def order? (op : CompareOp) (a b : Value) : Except RenderError (Option Ordering) :=
  match a, b with
  | .date x, .date y => .ok (some (x.order y))
  | _, _ =>
    match a.asNumber?, b.asNumber? with
    | some x, some y => .ok (x.compare? y)
    | _, _ => .error (.cannotCompare a.typeName op b.typeName)

/-- Whether the comparison holds. Equality never fails. -/
def compares (op : CompareOp) (a b : Value) : Except RenderError Bool :=
  match op with
  | .eq => .ok (a.looseEq b)
  | .ne => .ok (!a.looseEq b)
  | .lt => return (← order? op a b).any Ordering.isLT
  | .gt => return (← order? op a b).any Ordering.isGT
  | .le => return (← order? op a b).any Ordering.isLE
  | .ge => return (← order? op a b).any Ordering.isGE

end Value

def Condition.value (registry : Registry) (names : Names) : Condition → Except RenderError Value
  | holds e => e.value registry names
  | compares op left right => do
    let a ← left.value registry names
    let b ← right.value registry names
    return .boolean (← Value.compares op a b)

end TextTemplate
