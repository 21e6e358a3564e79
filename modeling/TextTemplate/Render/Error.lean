import TextTemplate.Expr.Basic
import TextTemplate.Filter.Basic

namespace TextTemplate

namespace Segment

def describe : Segment → String
  | key name => "key '" ++ name ++ "'"
  | index n => "index " ++ toString n

/-- Segments the way a path is written. -/
def pathText (segments : List Segment) : String :=
  segments.foldl (fun written segment =>
    match segment with
    | key name => if written.isEmpty then name else written ++ "." ++ name
    | index n => written ++ "[" ++ toString n ++ "]") ""

end Segment

inductive RenderError where
  | unknownFilter (name : String)
  /-- A segment cannot be read of what `path` leads to. -/
  | cannotRead (segment : Segment) (typeName : String) (path : List Segment)
  | cannotCompare (left : String) (op : CompareOp) (right : String)
  | inFilter (name : String) (cause : FilterError)
deriving DecidableEq, Repr

namespace RenderError

/-- The kinds of errors that a caller may tell apart. -/
inductive Kind where
  | unknownFilter | typeMismatch | format | argumentCount
deriving DecidableEq, Repr

def kind : RenderError → Kind
  | unknownFilter _ => .unknownFilter
  | cannotRead _ _ _ | cannotCompare _ _ _ | inFilter _ (.typeMismatch _) => .typeMismatch
  | inFilter _ (.format _) => .format
  | inFilter _ (.argumentCount _ _) => .argumentCount

def message : RenderError → String
  | unknownFilter name => "Unknown filter '" ++ name ++ "'"
  | cannotRead segment typeName path =>
    "Type mismatch: cannot read " ++ segment.describe ++ " of " ++ typeName ++ " '" ++
      Segment.pathText path ++ "'"
  | cannotCompare left op right =>
    "Type mismatch: cannot compare " ++ left ++ " " ++ op.symbol ++ " " ++ right
  | inFilter name (.typeMismatch message) => "Type mismatch: " ++ name ++ ": " ++ message
  | inFilter name (.format message) => "Format error in filter '" ++ name ++ "': " ++ message
  | inFilter name (.argumentCount expected got) =>
    "Filter '" ++ name ++ "' expects " ++ toString expected ++ " argument(s), got " ++ toString got

end RenderError

end TextTemplate
