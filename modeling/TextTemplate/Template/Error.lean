import TextTemplate.Expr.Cursor
import TextTemplate.Source.Piece

namespace TextTemplate

/-- A keyword that continues or closes a block. -/
inductive Closer where
  | elsif | otherwise | endif | endfor
deriving DecidableEq, Repr

namespace Closer

def word : Closer → String
  | elsif => "elsif"
  | otherwise => "else"
  | endif => "endif"
  | endfor => "endfor"

/-- The block that the keyword belongs to. -/
def block : Closer → String
  | endfor => "for"
  | _ => "if"

end Closer

inductive TemplateFault where
  | unterminated (kind : TagKind) (inQuote : Bool)
  /-- The content of a tag does not fit. -/
  | content (fault : SyntaxFault)
  | emptyStatement
  | unknownTag (word : String)
  | elsifAfterElse
  | secondElse
  /-- No block is open that the keyword could belong to. -/
  | stray (closer : Closer)
  | unclosedIf
  | unclosedFor
  /-- A loop is closed while an `if` from an earlier line is open. -/
  | endforInsideIf (line : Nat)
  /-- A keyword of `if` blocks meets an open loop. -/
  | insideFor (closer : Closer)
deriving DecidableEq, Repr

namespace TemplateFault

/-- The kinds that errors are reported under. -/
inductive Kind where
  | unterminatedTag | unbalancedTag | malformed
deriving DecidableEq, Repr

def kind : TemplateFault → Kind
  | unterminated _ _ => .unterminatedTag
  | stray _ | unclosedIf | unclosedFor | endforInsideIf _ | insideFor _ => .unbalancedTag
  | content _ | emptyStatement | unknownTag _ | elsifAfterElse | secondElse => .malformed

def message : TemplateFault → String
  | unterminated kind inQuote => UnterminatedTag.message ⟨kind, inQuote, Place.start⟩
  | content fault => fault.message
  | emptyStatement => "Empty statement tag"
  | unknownTag word => "Unknown tag '" ++ word ++ "'"
  | elsifAfterElse => "'elsif' after 'else'"
  | secondElse => "Duplicate 'else' in 'if' block"
  | stray closer => "'" ++ closer.word ++ "' without matching '" ++ closer.block ++ "'"
  | unclosedIf => "'if' is never closed with 'endif'"
  | unclosedFor => "'for' is never closed with 'endfor'"
  | endforInsideIf line =>
    "Expected 'endif' to close 'if' at line " ++ toString line ++ ", found 'endfor'"
  | insideFor closer => "'" ++ closer.word ++ "' without matching 'if' inside 'for'"

end TemplateFault

structure TemplateError where
  fault : TemplateFault
  place : Place
deriving DecidableEq, Repr

namespace TemplateError

def message (e : TemplateError) : String :=
  "Parse error at line " ++ toString e.place.line ++ ", column " ++ toString e.place.column ++ ": " ++
    e.fault.message

def ofUnterminated (e : UnterminatedTag) : TemplateError :=
  ⟨.unterminated e.kind e.inQuote, e.place⟩

/-- A fault in the content of the tag at `place`. -/
def inContent (place : Place) (content : List Char) (e : SyntaxError) : TemplateError :=
  ⟨.content e.fault, Piece.locate place content e.span.start⟩

end TemplateError

namespace UnterminatedTag

/-- The message of the scanner alone. -/
def fullMessage (e : UnterminatedTag) : String :=
  "Lexer error at line " ++ toString e.place.line ++ ", column " ++ toString e.place.column ++ ": " ++
    e.message

end UnterminatedTag

end TextTemplate
