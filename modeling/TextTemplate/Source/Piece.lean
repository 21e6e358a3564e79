import TextTemplate.Source.Place

namespace TextTemplate

/-- Output tags print an expression, statement tags steer the rendering. -/
inductive TagKind where
  | output | statement
deriving DecidableEq, Repr

namespace TagKind

def opener : TagKind → List Char
  | output => ['\x7b', '\x7b']
  | statement => ['\x7b', '%']

def closer : TagKind → List Char
  | output => ['\x7d', '\x7d']
  | statement => ['%', '\x7d']

def describe : TagKind → String
  | output => "output tag"
  | statement => "statement tag"

end TagKind

namespace Piece

/-- What a piece holds; a tag has its content as written, without the delimiters. -/
inductive Body where
  | text (content : List Char)
  | tag (kind : TagKind) (content : List Char)
deriving DecidableEq, Repr

/-- The body as it stands in a source. -/
def Body.written : Body → List Char
  | text content => content
  | tag kind content => kind.opener ++ content ++ kind.closer

@[simp] theorem Body.written_text (content : List Char) : (Body.text content).written = content := rfl

@[simp] theorem Body.written_tag (kind : TagKind) (content : List Char) :
    (Body.tag kind content).written = kind.opener ++ content ++ kind.closer := rfl

/-- The source that bodies make up, one after the other. -/
def Body.source (bodies : List Body) : String :=
  String.ofList (bodies.flatMap Body.written)

theorem Body.source_append (as bs : List Body) : source (as ++ bs) = source as ++ source bs := by
  simp [source]

end Piece

/-- A piece of a source, where it begins and the byte offset where it ends. -/
structure Piece where
  body : Piece.Body
  place : Place
  stop : Nat
deriving DecidableEq, Repr

namespace Piece

/-- The place of byte `offset` of the content of a tag, which begins two columns after the tag. -/
def locate (tag : Place) (content : List Char) (offset : Nat) : Place :=
  Place.within ⟨tag.offset + 2, tag.line, tag.column + 2⟩ content offset

end Piece

/-- A source that ends within a tag: which tag, whether within a quoted string, and where it begins. -/
structure UnterminatedTag where
  kind : TagKind
  inQuote : Bool
  place : Place
deriving DecidableEq, Repr

namespace UnterminatedTag

def message (e : UnterminatedTag) : String :=
  "Unterminated " ++ e.kind.describe ++ (if e.inQuote then " (string literal left open)" else "")

end UnterminatedTag

end TextTemplate
