import TextTemplate.Json.Reading

namespace TextTemplate

structure EngineOptions where
  /-- How many parsed templates are kept; none are for zero. -/
  cacheCapacity : Nat
deriving DecidableEq, Repr

namespace EngineOptions

def default : EngineOptions := ⟨64⟩

/-- A capacity is a whole number of 64 bits. -/
def capacity? : Json → Option Nat
  | .integer n => if 0 ≤ n && n.toNat < Nat.pow 2 64 then some n.toNat else none
  | _ => none

/-- Options are an object of named settings or an array of settings in order; what is left out has its
default. Nothing else may stand there, nor a setting twice. -/
def ofJson? : Json → Option EngineOptions
  | .object [] | .array [] => some default
  | .object [("cache_capacity", setting)] | .array [setting] => (capacity? setting).map EngineOptions.mk
  | _ => none

def ofText? (text : String) : Option EngineOptions :=
  (Json.read? text).bind ofJson?

end EngineOptions

end TextTemplate
