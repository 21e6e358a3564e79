import TextTemplate.Bindings
import TextTemplate.Value.Basic

namespace TextTemplate

inductive FilterError where
  | typeMismatch (message : String)
  | format (message : String)
  | argumentCount (expected got : Nat)
deriving DecidableEq, Repr

namespace FilterError

def message : FilterError → String
  | typeMismatch message => message
  | format message => message
  | argumentCount expected got =>
    "expected " ++ toString expected ++ " argument(s), got " ++ toString got

end FilterError

/-- From the value that is sent through and the arguments to a value. -/
abbrev Filter := Value → List Value → Except FilterError Value

structure Registry where
  filters : List (String × Filter)

namespace Registry

def empty : Registry := ⟨[]⟩

def get? (r : Registry) (name : String) : Option Filter :=
  r.filters.lookup name

/-- Adds a filter; one of the same name is replaced. -/
def register (r : Registry) (name : String) (filter : Filter) : Registry :=
  ⟨Bindings.insert name filter r.filters⟩

def contains (r : Registry) (name : String) : Bool :=
  (r.get? name).isSome

def names (r : Registry) : List String :=
  (r.filters.map (·.1)).mergeSort (· ≤ ·)

theorem get?_register (r : Registry) (name key : String) (filter : Filter) :
    (r.register name filter).get? key = if key = name then some filter else r.get? key :=
  Bindings.lookup_insert name key filter r.filters

end Registry

end TextTemplate
