import TextTemplate.Proofs.Source.Layout
import TextTemplate.Proofs.Template.Spelling

namespace TextTemplate

open Outcome Piece

inductive BlockKind where
  | conditional | loop
deriving DecidableEq, Repr

def BlockKind.closingTag : BlockKind → Body
  | conditional => .tag .statement [' ', 'e', 'n', 'd', 'i', 'f', ' ']
  | loop => .tag .statement [' ', 'e', 'n', 'd', 'f', 'o', 'r', ' ']

/-- An open block and where its opening tag stands. -/
structure OpenBlock where
  kind : BlockKind
  place : Place
deriving DecidableEq, Repr

/-- The name that a statement tag begins with. -/
def Piece.Body.keyword? : Body → Option String
  | .tag .statement content =>
    match Token.lex content with
    | .ok ⟨⟨.identifier word, _⟩ :: _, _⟩ => some word
    | _ => none
  | _ => none

namespace OpenBlock

/-- The open blocks, innermost first, behind one more piece. -/
def pass (blocks : List OpenBlock) (piece : Piece) : List OpenBlock :=
  match piece.body.keyword? with
  | some "if" => ⟨.conditional, piece.place⟩ :: blocks
  | some "for" => ⟨.loop, piece.place⟩ :: blocks
  | some "endif" | some "endfor" => blocks.tail
  | _ => blocks

/-- The blocks that are open behind pieces, innermost first. -/
def behind (pieces : List Piece) : List OpenBlock :=
  pieces.foldl pass []

def closingTags (blocks : List OpenBlock) : List Body :=
  blocks.map (·.kind.closingTag)

/-- One closing tag for each open block, innermost first. -/
def closing (blocks : List OpenBlock) : String :=
  Body.source (closingTags blocks)

example : closing [⟨.loop, ⟨9, 1, 10⟩⟩, ⟨.conditional, Place.start⟩] =
    "\x7b% endfor %\x7d\x7b% endif %\x7d" := by
  decide

theorem stand_closingTags (blocks : List OpenBlock) : Stand [] (closingTags blocks) := by
  induction blocks with
  | nil => trivial
  | cons block outer ih =>
    obtain ⟨kind, place⟩ := block
    cases kind with
    | conditional => exact ⟨rfl, ih⟩
    | loop => exact ⟨rfl, ih⟩

theorem opensOrEnds_closingTags (blocks : List OpenBlock) : OpensOrEnds (written (closingTags blocks)) := by
  cases blocks with
  | nil => exact .inl rfl
  | cons block outer =>
    obtain ⟨kind, place⟩ := block
    cases kind with
    | conditional => exact .inr rfl
    | loop => exact .inr rfl

end OpenBlock

theorem Piece.Body.keyword?_of_lex {content : List Char} {ts : Tokens} (hlex : Token.lex content = .ok ts)
    {word : String} {span : Span} {rest : List Token} (htokens : ts.toList = ⟨.identifier word, span⟩ :: rest) :
    keyword? (.tag .statement content) = some word := by
  obtain ⟨tokens, stop⟩ := ts
  subst htokens
  simp only [keyword?, hlex]

def Block.kind : Block → BlockKind
  | .conditional _ _ => .conditional
  | .loop _ _ => .loop

namespace Progress

def openBlocks (p : Progress) : List OpenBlock :=
  p.frames.map fun frame => ⟨frame.block.kind, frame.place⟩

variable {p p' : Progress}

theorem openBlocks_of_step {piece : Piece} (h : p.step piece = .ok p') :
    p'.openBlocks = OpenBlock.pass p.openBlocks piece := by
  obtain ⟨m, hspells, htake⟩ := step_eq_ok_iff.mp h
  have htaken := taken_of_take? htake
  obtain ⟨body, place, stop⟩ := piece
  change body.Spells m at hspells
  cases hspells with
  | text | output =>
    cases htaken
    rfl
  | statement hlex hworded =>
    have hkeyword (word : String) (span : Span) (rest : List Token) :=
      fun htokens => Body.keyword?_of_lex hlex (htokens : _ = ⟨.identifier word, span⟩ :: rest)
    generalize htokens : Tokens.toList _ = tokens at hworded hkeyword
    cases hworded <;> rw [OpenBlock.pass, hkeyword _ _ _ rfl] <;> cases htaken <;> rfl

/-- The parser has those blocks open that the keywords tell. -/
theorem openBlocks_of_readAll {pieces : List Piece} (h : p.readAll pieces = .ok p') :
    p'.openBlocks = pieces.foldl OpenBlock.pass p.openBlocks := by
  induction pieces generalizing p with
  | nil =>
    cases h
    rfl
  | cons piece rest ih =>
    rw [readAll_cons] at h
    obtain ⟨q, hstep, hrest⟩ := bind_eq_ok_iff.mp h
    rw [ih hrest, openBlocks_of_step hstep]
    rfl

theorem openBlocks_of_start {pieces : List Piece} (h : start.readAll pieces = .ok p) :
    p.openBlocks = OpenBlock.behind pieces :=
  openBlocks_of_readAll h

theorem spells_closingTag_conditional : BlockKind.conditional.closingTag.Spells .endif := by
  have hlex : Token.lex [' ', 'e', 'n', 'd', 'i', 'f', ' '] = .ok ⟨[⟨.identifier "endif", ⟨1, 6⟩⟩], 7⟩ := by
    decide +kernel
  exact .statement hlex .endif

theorem spells_closingTag_loop : BlockKind.loop.closingTag.Spells .endfor := by
  have hlex : Token.lex [' ', 'e', 'n', 'd', 'f', 'o', 'r', ' '] =
      .ok ⟨[⟨.identifier "endfor", ⟨1, 7⟩⟩], 8⟩ := by
    decide +kernel
  exact .statement hlex .endfor

theorem exists_readAll_closingTags (p : Progress) (q : Place) :
    ∃ body, p.readAll (layOut q (OpenBlock.closingTags p.openBlocks)) = .ok ⟨[], body⟩ := by
  obtain ⟨frames, body⟩ := p
  induction frames generalizing body q with
  | nil => exact ⟨body, rfl⟩
  | cons frame below ih =>
    obtain ⟨block, opened, before⟩ := frame
    cases block with
    | conditional done pending =>
      have htake : ∃ body', take? ⟨⟨.conditional done pending, opened, before⟩ :: below, body⟩ q .endif =
          some ⟨below, body'⟩ := by
        cases pending with
        | none => exact ⟨_, rfl⟩
        | some condition => exact ⟨_, rfl⟩
      obtain ⟨body', htake⟩ := htake
      obtain ⟨last, hlast⟩ := ih (q.after BlockKind.conditional.closingTag.written) body'
      refine ⟨last, ?_⟩
      rw [← hlast]
      exact readAll_of_take? spells_closingTag_conditional htake
    | loop name source =>
      obtain ⟨last, hlast⟩ := ih (q.after BlockKind.loop.closingTag.written)
        (before.push (.loop name source body.toList))
      refine ⟨last, ?_⟩
      rw [← hlast]
      exact readAll_of_take? spells_closingTag_loop rfl

theorem exists_readAll_endBlank {bodies : List Body} {q : Place} (h : p.readAll (layOut q bodies) = .ok p') :
    ∃ p'', p.readAll (layOut q (endBlank bodies)) = .ok p'' ∧ p''.openBlocks = p'.openBlocks := by
  fun_induction endBlank bodies generalizing p q with
  | case1 =>
    cases h
    exact ⟨_, rfl, rfl⟩
  | case2 content =>
    cases h
    exact ⟨_, rfl, rfl⟩
  | case3 body rest _ ih =>
    rw [layOut, readAll_cons] at h
    obtain ⟨next, hstep, hrest⟩ := bind_eq_ok_iff.mp h
    obtain ⟨p'', hread, hblocks⟩ := ih hrest
    refine ⟨p'', ?_, hblocks⟩
    rw [layOut, readAll_cons, hstep]
    exact hread

end Progress

namespace Template

theorem parse_source {bodies : List Body} (h : Stand [] bodies) :
    parse (Body.source bodies) = ofPieces (layOut Place.start bodies) := by
  rw [parse, scan_source h]

/-- A source is a template exactly if it can be written with bodies that stand in it and spell the template. -/
theorem parse_eq_ok_iff {source : String} {t : Template} :
    parse source = .ok t ↔ ∃ bodies, Stand [] bodies ∧ Body.source bodies = source ∧ t.SpelledBy bodies := by
  constructor
  · intro h
    cases hscan : scan source with
    | error e => simp [parse, hscan] at h
    | ok scanned =>
      obtain ⟨bodies, hpieces, hstand, hsource⟩ := exists_layOut_of_scan hscan
      rw [← hsource, parse_source hstand, ofPieces_eq_ok_iff_spelledBy, map_body_layOut] at h
      exact ⟨bodies, hstand, hsource, h⟩
  · intro h
    obtain ⟨bodies, hstand, hsource, hspelled⟩ := h
    rw [← hsource, parse_source hstand, ofPieces_eq_ok_iff_spelledBy, map_body_layOut]
    exact hspelled

/-- What can be read becomes a template when the open blocks are closed behind it. -/
theorem exists_parse_closing {bodies : List Body} {p : Progress}
    (hstand : Stand (written (OpenBlock.closingTags p.openBlocks)) bodies)
    (hread : Progress.start.readAll (layOut Place.start bodies) = .ok p) :
    ∃ t, parse (Body.source bodies ++ OpenBlock.closing p.openBlocks) = .ok t := by
  have hclosed : Stand [] (bodies ++ OpenBlock.closingTags p.openBlocks) := by
    rw [stand_append, List.append_nil]
    exact ⟨hstand, OpenBlock.stand_closingTags p.openBlocks⟩
  obtain ⟨body, hclose⟩ := p.exists_readAll_closingTags (Place.start.after (written bodies))
  refine ⟨⟨body.toList⟩, ?_⟩
  rw [OpenBlock.closing, ← Body.source_append, parse_source hclosed, ofPieces_eq_ok_iff]
  refine ⟨body, ?_, rfl⟩
  rw [layOut_append, Progress.readAll_append, hread]
  exact hclose

end Template

end TextTemplate
