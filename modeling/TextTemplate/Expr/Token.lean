import TextTemplate.Number.Basic

namespace TextTemplate

/-- A range of bytes in the content of a tag. -/
@[ext] structure Span where
  start : Nat
  stop : Nat
deriving DecidableEq, Repr

namespace Span

/-- The least range that holds both. -/
def join (a b : Span) : Span :=
  ⟨min a.start b.start, max a.stop b.stop⟩

end Span

inductive CompareOp where
  | eq | ne | lt | gt | le | ge
deriving DecidableEq, Repr

namespace CompareOp

def symbol : CompareOp → String
  | eq => "=="
  | ne => "!="
  | lt => "<"
  | gt => ">"
  | le => "<="
  | ge => ">="

end CompareOp

namespace Token

/-- The kinds of tokens; the end of the content counts as one. -/
inductive Kind where
  | number | string | boolean | nil | identifier
  | comparison (op : CompareOp)
  | assign | dot | comma | colon | pipe | leftBracket | rightBracket
  | endOfTag
deriving DecidableEq, Repr

def Kind.describe : Kind → String
  | number => "number"
  | string => "string"
  | boolean => "boolean"
  | nil => "nil"
  | identifier => "identifier"
  | comparison op => "'" ++ op.symbol ++ "'"
  | assign => "'='"
  | dot => "'.'"
  | comma => "','"
  | colon => "':'"
  | pipe => "'|'"
  | leftBracket => "'['"
  | rightBracket => "']'"
  | endOfTag => "end of tag"

/-- A token's kind together with what it carries. -/
inductive Lexeme where
  | number (n : Number)
  | string (s : String)
  | boolean (b : Bool)
  | nil
  | identifier (name : String)
  | comparison (op : CompareOp)
  | assign | dot | comma | colon | pipe | leftBracket | rightBracket
  | endOfTag
deriving DecidableEq

def Lexeme.kind : Lexeme → Kind
  | number _ => .number
  | string _ => .string
  | boolean _ => .boolean
  | nil => .nil
  | identifier _ => .identifier
  | comparison op => .comparison op
  | assign => .assign
  | dot => .dot
  | comma => .comma
  | colon => .colon
  | pipe => .pipe
  | leftBracket => .leftBracket
  | rightBracket => .rightBracket
  | endOfTag => .endOfTag

end Token

structure Token where
  lexeme : Token.Lexeme
  span : Span
deriving DecidableEq

namespace Token

def kind (t : Token) : Kind :=
  t.lexeme.kind

end Token

end TextTemplate
