import TextTemplate.Json.Reading
import TextTemplate.Value.Basic

namespace TextTemplate

/-- The variables that the caller supplies, in the order in which they were given. -/
structure Context where
  vars : List (String × Value)

inductive ContextError where
  | notJson
  | notAnObject (typeName : String)
deriving DecidableEq, Repr

namespace ContextError

def message : ContextError → String
  | notJson => "Invalid context JSON: not a JSON text"
  | notAnObject typeName => "Context must be a JSON object, got " ++ typeName

end ContextError

namespace Context

def empty : Context := ⟨[]⟩

def ofValue : Value → Except ContextError Context
  | .object fields => .ok ⟨fields⟩
  | other => .error (.notAnObject other.typeName)

/-- Reads a context from a JSON text, which has to be an object. -/
def ofText (text : String) : Except ContextError Context :=
  match Json.read? text with
  | some json => ofValue (Value.ofJson json)
  | none => .error .notJson

def insert (c : Context) (name : String) (value : Value) : Context :=
  ⟨Bindings.insert name value c.vars⟩

def get? (c : Context) (name : String) : Option Value :=
  c.vars.lookup name

def size (c : Context) : Nat :=
  c.vars.length

end Context

/-- The variables that a template has bound so far. -/
structure Scope where
  vars : List (String × Value)

namespace Scope

def empty : Scope := ⟨[]⟩

def get? (s : Scope) (name : String) : Option Value :=
  s.vars.lookup name

def set (s : Scope) (name : String) (value : Value) : Scope :=
  ⟨Bindings.insert name value s.vars⟩

/-- Gives `name` the binding back that it had before, or none if it had none. -/
def restore (s : Scope) (name : String) (previous : Option Value) : Scope :=
  match previous with
  | some value => s.set name value
  | none => ⟨Bindings.erase name s.vars⟩

theorem get?_set (s : Scope) (name key : String) (value : Value) :
    (s.set name value).get? key = if key = name then some value else s.get? key :=
  Bindings.lookup_insert name key value s.vars

theorem get?_restore (s : Scope) (name key : String) (previous : Option Value) :
    (s.restore name previous).get? key = if key = name then previous else s.get? key := by
  cases previous with
  | some value => exact get?_set s name key value
  | none => exact Bindings.lookup_erase name key s.vars

end Scope

end TextTemplate
