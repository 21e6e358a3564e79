import TextTemplate.Expr.Grammar

namespace TextTemplate

/-- A fault and the span of the token that did not fit. -/
structure SyntaxError where
  fault : SyntaxFault
  span : Span
deriving DecidableEq, Repr

namespace SyntaxError

/-- The message as it stands alone, with the byte offset in the tag. -/
def message (e : SyntaxError) : String :=
  e.fault.message ++ " (at offset " ++ toString e.span.start ++ ")"

def ofLexError (e : LexError) : SyntaxError :=
  ⟨.lexical e.fault, e.span⟩

end SyntaxError

/-- The tokens that are left and the byte offset of the end of the tag. A fault leaves the token that did not fit at
hand. -/
structure Cursor where
  rest : List Token
  stop : Nat
deriving DecidableEq

namespace Cursor

def ofContent (content : List Char) : Except SyntaxError Cursor :=
  match Token.lex content with
  | .ok ts => .ok ⟨ts.toList, ts.stop⟩
  | .error e => .error (.ofLexError e)

/-- The token at hand; at the end it is the end of the tag. -/
def peek (c : Cursor) : Token :=
  c.rest.head?.getD ⟨.endOfTag, ⟨c.stop, c.stop⟩⟩

def atEnd (c : Cursor) : Bool :=
  c.peek.kind == .endOfTag

/-- Behind the token at hand; the end is never passed. -/
def advance (c : Cursor) : Cursor :=
  ⟨c.rest.tail, c.stop⟩

def fail {α : Type} (c : Cursor) (fault : SyntaxFault) : Except SyntaxError α × Cursor :=
  (.error ⟨fault, c.peek.span⟩, c)

def parse {α : Type} (rule : List Token → Grammar.Outcome α) (c : Cursor) :
    Except SyntaxError α × Cursor :=
  match rule c.rest with
  | (.ok a, rest) => (.ok a, ⟨rest, c.stop⟩)
  | (.error fault, rest) => fail ⟨rest, c.stop⟩ fault

def primary (c : Cursor) : Except SyntaxError Primary × Cursor :=
  c.parse Grammar.primary

def filtered (c : Cursor) : Except SyntaxError Filtered × Cursor :=
  c.parse Grammar.filtered

def condition (c : Cursor) : Except SyntaxError Condition × Cursor :=
  c.parse Grammar.condition

def expect (kind : Token.Kind) (c : Cursor) : Except SyntaxError Token × Cursor :=
  if c.peek.kind = kind then (.ok c.peek, c.advance)
  else c.fail (.expected kind.describe c.peek.kind)

/-- Takes an identifier; `what` names its role in messages. -/
def expectIdentifier (what : String) (c : Cursor) : Except SyntaxError (String × Span) × Cursor :=
  match c.peek with
  | ⟨.identifier name, span⟩ => (.ok (name, span), c.advance)
  | t => c.fail (.expected what t.kind)

def expectKeyword (keyword : String) (c : Cursor) : Except SyntaxError Unit × Cursor :=
  match c.peek with
  | ⟨.identifier name, _⟩ =>
    if name = keyword then (.ok (), c.advance)
    else c.fail (.expected ("'" ++ keyword ++ "'") .identifier)
  | t => c.fail (.expected ("'" ++ keyword ++ "'") t.kind)

/-- Why a token is not the end of the tag. -/
def leftover? : Token.Lexeme → Option SyntaxFault
  | .endOfTag => none
  | .comparison _ => some .comparisonOutsideCondition
  | .identifier word =>
    some (if word = "and" ∨ word = "or" then .booleanOperator word else .unexpected .identifier)
  | l => some (.unexpected l.kind)

def expectEnd (c : Cursor) : Except SyntaxError Unit :=
  match leftover? c.peek.lexeme with
  | none => .ok ()
  | some fault => .error ⟨fault, c.peek.span⟩

/-- The result with the cursor behind it, for reading that ends at the first fault. -/
def orFail {α : Type} (o : Except SyntaxError α × Cursor) : Except SyntaxError (α × Cursor) :=
  o.1.map fun a => (a, o.2)

end Cursor

namespace Filtered

/-- Reads a whole content as an expression without comparison. -/
def ofContent (content : List Char) : Except SyntaxError Filtered := do
  let c ← Cursor.ofContent content
  let (e, c) ← Cursor.orFail c.filtered
  c.expectEnd
  return e

end Filtered

namespace Condition

def ofContent (content : List Char) : Except SyntaxError Condition := do
  let c ← Cursor.ofContent content
  let (e, c) ← Cursor.orFail c.condition
  c.expectEnd
  return e

end Condition

end TextTemplate
