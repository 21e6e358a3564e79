import TextTemplate.Source.Scan
import TextTemplate.Template.Basic
import TextTemplate.Template.Error

namespace TextTemplate

/-- An open block: finished branches and what the branch at hand is tested by, nothing in the `else` branch;
or a loop. -/
inductive Block where
  | conditional (done : List (Condition × List Node)) (pending : Option Condition)
  | loop (name : String) (source : Filtered)

/-- An open block, where its opening tag stands, and the nodes before it in the body around it. -/
structure Frame where
  block : Block
  place : Place
  before : Array Node

/-- How far a template is read: the open blocks, innermost first, and the nodes of the body at hand. -/
structure Progress where
  frames : List Frame
  body : Array Node

namespace Progress

def start : Progress := ⟨[], #[]⟩

def push (p : Progress) (node : Node) : Progress :=
  ⟨p.frames, p.body.push node⟩

def enter (p : Progress) (block : Block) (place : Place) : Progress :=
  ⟨⟨block, place, p.body⟩ :: p.frames, #[]⟩

end Progress

/-- A statement tag: its keyword, the tokens behind it, and the tag itself. -/
structure Statement where
  keyword : String
  cursor : Cursor
  place : Place
  content : List Char

namespace Statement

def ofTag (place : Place) (content : List Char) : Except TemplateError Statement :=
  match Cursor.ofContent content with
  | .error e => .error (.inContent place content e)
  | .ok c =>
    if c.atEnd then .error ⟨.emptyStatement, place⟩
    else
      match c.expectIdentifier "tag name" with
      | (.error e, _) => .error (.inContent place content e)
      | (.ok (keyword, _), c) => .ok ⟨keyword, c, place, content⟩

/-- Reads what follows the keyword. -/
def read {α : Type} (s : Statement) (reader : Cursor → Except SyntaxError α) :
    Except TemplateError α :=
  match reader s.cursor with
  | .ok a => .ok a
  | .error e => .error (.inContent s.place s.content e)

def bare (s : Statement) : Except TemplateError Unit :=
  s.read Cursor.expectEnd

def condition (s : Statement) : Except TemplateError Condition :=
  s.read fun c => do
    let (e, c) ← Cursor.orFail c.condition
    c.expectEnd
    return e

def loopHead (s : Statement) : Except TemplateError (String × Filtered) :=
  s.read fun c => do
    let ((name, _), c) ← Cursor.orFail (c.expectIdentifier "loop variable name")
    let (_, c) ← Cursor.orFail (c.expectKeyword "in")
    let (source, c) ← Cursor.orFail c.filtered
    c.expectEnd
    return (name, source)

def assignment (s : Statement) : Except TemplateError (String × Filtered) :=
  s.read fun c => do
    let ((name, _), c) ← Cursor.orFail (c.expectIdentifier "variable name")
    let (_, c) ← Cursor.orFail (c.expect .assign)
    let (value, c) ← Cursor.orFail c.filtered
    c.expectEnd
    return (name, value)

/-- The closing or continuing keyword of the tag, if it is one. -/
def closer? (s : Statement) : Option Closer :=
  match s.keyword with
  | "elsif" => some .elsif
  | "else" => some .otherwise
  | "endif" => some .endif
  | "endfor" => some .endfor
  | _ => none

end Statement

namespace Progress

/-- A keyword that continues or closes the `if` block on top of the stack. `done`, `pending` and `frame` are
that block, `below` the blocks around it. -/
def closeConditional (body : Array Node) (done : List (Condition × List Node))
    (pending : Option Condition) (frame : Frame) (below : List Frame) (s : Statement) (closer : Closer) :
    Except TemplateError Progress :=
  match closer, pending with
  | .endfor, _ => .error ⟨.endforInsideIf frame.place.line, s.place⟩
  | .elsif, none => .error ⟨.elsifAfterElse, s.place⟩
  | .otherwise, none => .error ⟨.secondElse, s.place⟩
  | .elsif, some condition => do
    let next ← s.condition
    let block := Block.conditional (done ++ [(condition, body.toList)]) (some next)
    return ⟨{ frame with block := block } :: below, #[]⟩
  | .otherwise, some condition => do
    s.bare
    let block := Block.conditional (done ++ [(condition, body.toList)]) none
    return ⟨{ frame with block := block } :: below, #[]⟩
  | .endif, some condition => do
    s.bare
    let chain := Chain.ofBranches (done ++ [(condition, body.toList)]) .stop
    return ⟨below, frame.before.push (.conditional chain)⟩
  | .endif, none => do
    s.bare
    let chain := Chain.ofBranches done (.otherwise body.toList)
    return ⟨below, frame.before.push (.conditional chain)⟩

/-- A keyword that continues or closes a block. -/
def close (p : Progress) (s : Statement) (closer : Closer) : Except TemplateError Progress :=
  match p.frames with
  | [] => .error ⟨.stray closer, s.place⟩
  | frame :: below =>
    match frame.block with
    | .conditional done pending => closeConditional p.body done pending frame below s closer
    | .loop name source =>
      match closer with
      | .endfor => do
        s.bare
        return ⟨below, frame.before.push (.loop name source p.body.toList)⟩
      | _ => .error ⟨.insideFor closer, s.place⟩

def statement (p : Progress) (s : Statement) : Except TemplateError Progress :=
  match s.closer? with
  | some closer => p.close s closer
  | none =>
    match s.keyword with
    | "if" => do
      let condition ← s.condition
      return p.enter (.conditional [] (some condition)) s.place
    | "for" => do
      let (name, source) ← s.loopHead
      return p.enter (.loop name source) s.place
    | "assign" => do
      let (name, value) ← s.assignment
      return p.push (.assign name value)
    | word => .error ⟨.unknownTag word, s.place⟩

def step (p : Progress) (piece : Piece) : Except TemplateError Progress :=
  match piece.body with
  | .text content => .ok (p.push (.text (String.ofList content)))
  | .tag .output content =>
    match Filtered.ofContent content with
    | .ok e => .ok (p.push (.output e))
    | .error e => .error (.inContent piece.place content e)
  | .tag .statement content => do
    let s ← Statement.ofTag piece.place content
    p.statement s

/-- The end of the source: no block may be open. -/
def finish (p : Progress) : Except TemplateError Template :=
  match p.frames with
  | [] => .ok ⟨p.body.toList⟩
  | frame :: _ =>
    match frame.block with
    | .conditional _ _ => .error ⟨.unclosedIf, frame.place⟩
    | .loop _ _ => .error ⟨.unclosedFor, frame.place⟩

end Progress

namespace Template

def ofPieces (pieces : List Piece) : Except TemplateError Template := do
  let p ← pieces.foldlM Progress.step Progress.start
  p.finish

def parse (source : String) : Except TemplateError Template :=
  match Piece.scan source with
  | .ok scanned => ofPieces scanned.pieces
  | .error e => .error (.ofUnterminated e)

end Template

end TextTemplate
