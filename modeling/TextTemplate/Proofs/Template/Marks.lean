import Mathlib.Data.List.Forall2
import TextTemplate.Expr.Cursor
import TextTemplate.Source.Piece
import TextTemplate.Template.Basic

namespace TextTemplate

/-- What one text or tag stands for. -/
inductive Mark where
  | text (content : String)
  | output (e : Filtered)
  | assign (name : String) (value : Filtered)
  | conditional (condition : Condition)
  | elsif (condition : Condition)
  | otherwise
  | endif
  | loop (name : String) (source : Filtered)
  | endfor

namespace Mark

/-- The tokens that a statement tag words a mark by. An expression takes all tokens that are left, and a bare
keyword leaves none. -/
inductive Worded : List Token → Mark → Prop
  | conditional {s : Span} {rest : List Token} {c : Condition}
      (h : Grammar.condition rest = (.ok c, [])) : Worded (⟨.identifier "if", s⟩ :: rest) (.conditional c)
  | elsif {s : Span} {rest : List Token} {c : Condition}
      (h : Grammar.condition rest = (.ok c, [])) : Worded (⟨.identifier "elsif", s⟩ :: rest) (.elsif c)
  | otherwise {s : Span} : Worded [⟨.identifier "else", s⟩] .otherwise
  | endif {s : Span} : Worded [⟨.identifier "endif", s⟩] .endif
  | loop {s₁ s₂ s₃ : Span} {name : String} {rest : List Token} {source : Filtered}
      (h : Grammar.filtered rest = (.ok source, [])) :
      Worded (⟨.identifier "for", s₁⟩ :: ⟨.identifier name, s₂⟩ :: ⟨.identifier "in", s₃⟩ :: rest)
        (.loop name source)
  | endfor {s : Span} : Worded [⟨.identifier "endfor", s⟩] .endfor
  | assign {s₁ s₂ s₃ : Span} {name : String} {rest : List Token} {value : Filtered}
      (h : Grammar.filtered rest = (.ok value, [])) :
      Worded (⟨.identifier "assign", s₁⟩ :: ⟨.identifier name, s₂⟩ :: ⟨.assign, s₃⟩ :: rest)
        (.assign name value)

end Mark

/-- The mark that a text or a tag of a source spells. -/
inductive Piece.Body.Spells : Piece.Body → Mark → Prop
  | text {content : List Char} : Spells (.text content) (.text (String.ofList content))
  | output {content : List Char} {e : Filtered} (h : Filtered.ofContent content = .ok e) :
      Spells (.tag .output content) (.output e)
  | statement {content : List Char} {ts : Tokens} {m : Mark} (hlex : Token.lex content = .ok ts)
      (h : Mark.Worded ts.toList m) : Spells (.tag .statement content) m

mutual

def Node.marks : Node → List Mark
  | .text content => [.text content]
  | .output e => [.output e]
  | .conditional chain => chain.marks .conditional
  | .loop name source body => .loop name source :: Node.marksAll body ++ [.endfor]
  | .assign name value => [.assign name value]

def Node.marksAll : List Node → List Mark
  | [] => []
  | node :: rest => node.marks ++ Node.marksAll rest

/-- The first test of a block stands in its opening tag, the others in tags of their own. -/
def Chain.marks (tag : Condition → Mark) : Chain → List Mark
  | .stop => [.endif]
  | .otherwise body => .otherwise :: Node.marksAll body ++ [.endif]
  | .test condition body rest => tag condition :: Node.marksAll body ++ rest.marks .elsif

end

def Template.marks (t : Template) : List Mark :=
  Node.marksAll t.nodes

def Chain.BeginsWithTest : Chain → Prop
  | .test _ _ _ => True
  | .stop | .otherwise _ => False

mutual

/-- Every block of a node has a first branch. -/
def Node.Branched : Node → Prop
  | .conditional chain => chain.BeginsWithTest ∧ chain.Branched
  | .loop _ _ body => Node.AllBranched body
  | .text _ | .output _ | .assign _ _ => True

def Node.AllBranched : List Node → Prop
  | [] => True
  | node :: rest => node.Branched ∧ Node.AllBranched rest

def Chain.Branched : Chain → Prop
  | .stop => True
  | .otherwise body => Node.AllBranched body
  | .test _ body rest => Node.AllBranched body ∧ rest.Branched

end

/-- The bodies spell the marks of the template, each its own, in their order. -/
structure Template.SpelledBy (t : Template) (bodies : List Piece.Body) : Prop where
  branched : Node.AllBranched t.nodes
  spells : List.Forall₂ Piece.Body.Spells bodies t.marks

namespace Node

theorem marksAll_append (as bs : List Node) : marksAll (as ++ bs) = marksAll as ++ marksAll bs := by
  induction as with
  | nil => rfl
  | cons node rest ih => rw [List.cons_append, marksAll, marksAll, ih, List.append_assoc]

theorem allBranched_append (as bs : List Node) :
    AllBranched (as ++ bs) ↔ AllBranched as ∧ AllBranched bs := by
  induction as with
  | nil => simp [AllBranched]
  | cons node rest ih => rw [List.cons_append, AllBranched, AllBranched, ih, and_assoc]

theorem marksAll_singleton (node : Node) : marksAll [node] = node.marks := by
  rw [marksAll, marksAll, List.append_nil]

theorem allBranched_singleton (node : Node) : AllBranched [node] ↔ node.Branched := by
  rw [AllBranched, AllBranched, and_true]

end Node

end TextTemplate
