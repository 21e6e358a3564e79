import TextTemplate.Proofs.Expr.Forms
import TextTemplate.Proofs.Expr.Recognition
import TextTemplate.Proofs.Source.RoundTrip
import TextTemplate.Proofs.Template.OpenBlocks

namespace TextTemplate

open Piece

def Node.IsText : Node → Prop
  | .text _ => True
  | .output _ | .conditional _ | .loop _ _ _ | .assign _ _ => False

/-- No two texts stand next to each other. -/
def Node.Apart (nodes : List Node) : Prop :=
  nodes.IsChain fun node next => ¬ (node.IsText ∧ next.IsText)

mutual

/-- Texts hold something, blocks begin with a test, names are names of variables, expressions have the form that their
place asks for, and in each body texts stand apart. -/
def Node.WellFormed : Node → Prop
  | .text content => content ≠ ""
  | .output e => e.expr.Plain
  | .conditional chain => chain.BeginsWithTest ∧ chain.WellFormed
  | .loop name source body =>
    Token.IsVariable name ∧ source.expr.Plain ∧ Node.Apart body ∧ Node.AllWellFormed body
  | .assign name value => Token.IsVariable name ∧ value.expr.Plain

def Node.AllWellFormed : List Node → Prop
  | [] => True
  | node :: rest => node.WellFormed ∧ Node.AllWellFormed rest

def Chain.WellFormed : Chain → Prop
  | .stop => True
  | .otherwise body => Node.Apart body ∧ Node.AllWellFormed body
  | .test condition body rest =>
    condition.expr.Test ∧ Node.Apart body ∧ Node.AllWellFormed body ∧ rest.WellFormed

end

structure Template.WellFormed (t : Template) : Prop where
  apart : Node.Apart t.nodes
  nodes : Node.AllWellFormed t.nodes

namespace Mark

def IsText : Mark → Prop
  | text _ => True
  | _ => False

def Apart (ms : List Mark) : Prop :=
  ms.IsChain fun m next => ¬ (m.IsText ∧ next.IsText)

/-- What a mark must be for the node that it belongs to. -/
def WellFormed : Mark → Prop
  | text content => content ≠ ""
  | output e => e.expr.Plain
  | assign name value => Token.IsVariable name ∧ value.expr.Plain
  | conditional condition | elsif condition => condition.expr.Test
  | loop name source => Token.IsVariable name ∧ source.expr.Plain
  | otherwise | endif | endfor => True

theorem Worded.wellFormed {ts : List Token} {m : Mark} (h : Worded ts m) (hts : ∀ l ∈ ts.map (·.lexeme), l.Sound) :
    m.WellFormed := by
  cases h with
  | conditional h | elsif h =>
    rw [List.map_cons, List.forall_mem_cons] at hts
    exact Grammar.test_of_condition h hts.2
  | loop h | assign h =>
    simp only [List.map_cons, List.forall_mem_cons] at hts
    exact ⟨hts.2.1, Grammar.plain_of_filtered h hts.2.2.2⟩
  | otherwise | endif | endfor => trivial

theorem Worded.not_isText {ts : List Token} {m : Mark} (h : Worded ts m) : ¬ m.IsText := by
  cases h <;> exact id

end Mark

namespace Piece.Body

variable {body : Body} {m : Mark}

theorem Spells.wellFormed (h : body.Spells m) (hclean : body.Clean) : m.WellFormed := by
  cases h with
  | text =>
    intro hempty
    exact hclean.1 (String.ofList_eq_empty_iff.mp hempty)
  | output h =>
    have hread := (Cursor.ofContent_parseToEnd_eq_ok_iff Grammar.suffix_filtered).mp h
    obtain ⟨ts, hlex, hfiltered⟩ := hread
    exact Grammar.plain_of_filtered hfiltered (Token.sound_of_lex hlex)
  | statement hlex h => exact h.wellFormed (Token.sound_of_lex hlex)

theorem Spells.isText_iff (h : body.Spells m) : m.IsText ↔ ∃ content, body = .text content := by
  cases h with
  | text => exact iff_of_true trivial ⟨_, rfl⟩
  | output h => simp [Mark.IsText]
  | statement hlex h => simp [h.not_isText]

theorem Spells.not_both_text {next : Body} {m' : Mark} (h : body.Spells m) (hnext : next.Spells m')
    (hmay : body.MayPrecede next) : ¬ (m.IsText ∧ m'.IsText) := by
  rintro ⟨htext, htext'⟩
  obtain ⟨content, rfl⟩ := h.isText_iff.mp htext
  obtain ⟨content', rfl⟩ := hnext.isText_iff.mp htext'
  exact hmay

end Piece.Body

namespace Mark

theorem wellFormed_of_separated {bodies : List Body} {ms : List Mark} (hspells : List.Forall₂ Body.Spells bodies ms)
    (hclean : ∀ body ∈ bodies, body.Clean) : ∀ m ∈ ms, m.WellFormed := by
  intro m hm
  obtain ⟨i, hi, rfl⟩ := List.mem_iff_getElem.mp hm
  have hlength : bodies.length = ms.length := hspells.length_eq
  have hspell := hspells.get (i := i) (by omega) hi
  exact hspell.wellFormed (hclean _ (List.getElem_mem _))

theorem apart_of_separated {bodies : List Body} {ms : List Mark} (hspells : List.Forall₂ Body.Spells bodies ms)
    (hmay : bodies.IsChain Body.MayPrecede) : Apart ms := by
  induction hspells with
  | nil => exact .nil
  | @cons body m bodies ms h hrest ih =>
    cases hrest with
    | nil => exact .singleton m
    | cons hnext htail =>
      rw [List.isChain_cons_cons] at hmay
      exact .cons_cons (h.not_both_text hnext hmay.1) (ih hmay.2)

end Mark

theorem Node.apart_cons {node : Node} {rest : List Node} (hmarks : Mark.Apart (Node.marksAll (node :: rest)))
    (hrest : Node.Apart rest) : Node.Apart (node :: rest) := by
  cases rest with
  | nil => exact .singleton node
  | cons next rest =>
    refine .cons_cons ?_ hrest
    rintro ⟨htext, htext'⟩
    cases node <;> cases htext
    cases next <;> cases htext'
    exact (List.isChain_cons_cons.mp hmarks).1 ⟨trivial, trivial⟩

mutual

/-- A tree whose marks are well-formed and have their texts apart is well-formed. -/
theorem Node.wellFormed_of_marks (node : Node) (hb : node.Branched) (hm : ∀ m ∈ node.marks, m.WellFormed)
    (ha : Mark.Apart node.marks) : node.WellFormed := by
  cases node with
  | text | output | assign => exact hm _ List.mem_cons_self
  | conditional chain => exact ⟨hb.1, chain.wellFormed_of_marks hb.2 .conditional (fun _ h => h) hm ha⟩
  | loop name source body =>
    rw [Node.marks, List.cons_append, List.forall_mem_cons, List.forall_mem_append] at hm
    have hinner : Mark.Apart (Node.marksAll body) := (List.isChain_append.mp (List.IsChain.tail ha)).1
    exact ⟨hm.1.1, hm.1.2, Node.allWellFormed_of_marks body hb hm.2.1 hinner⟩

theorem Node.allWellFormed_of_marks (nodes : List Node) (hb : Node.AllBranched nodes)
    (hm : ∀ m ∈ Node.marksAll nodes, m.WellFormed) (ha : Mark.Apart (Node.marksAll nodes)) :
    Node.Apart nodes ∧ Node.AllWellFormed nodes := by
  cases nodes with
  | nil => exact ⟨.nil, trivial⟩
  | cons node rest =>
    have hparts := List.isChain_append.mp ha
    rw [Node.marksAll, List.forall_mem_append] at hm
    have hnode : node.WellFormed := node.wellFormed_of_marks hb.1 hm.1 hparts.1
    have hrest := Node.allWellFormed_of_marks rest hb.2 hm.2 hparts.2.1
    exact ⟨Node.apart_cons ha hrest.1, hnode, hrest.2⟩

theorem Chain.wellFormed_of_marks (chain : Chain) (hb : chain.Branched) (tag : Condition → Mark)
    (htag : ∀ c : Condition, (tag c).WellFormed → c.expr.Test) (hm : ∀ m ∈ chain.marks tag, m.WellFormed)
    (ha : Mark.Apart (chain.marks tag)) : chain.WellFormed := by
  cases chain with
  | stop => trivial
  | otherwise body =>
    rw [Chain.marks, List.cons_append, List.forall_mem_cons, List.forall_mem_append] at hm
    have hinner : Mark.Apart (Node.marksAll body) := (List.isChain_append.mp (List.IsChain.tail ha)).1
    exact Node.allWellFormed_of_marks body hb hm.2.1 hinner
  | test condition body rest =>
    rw [Chain.marks, List.cons_append, List.forall_mem_cons, List.forall_mem_append] at hm
    obtain ⟨hinner, hlater, -⟩ := List.isChain_append.mp (List.IsChain.tail ha)
    have hbody := Node.allWellFormed_of_marks body hb.1 hm.2.1 hinner
    have hrest : rest.WellFormed := rest.wellFormed_of_marks hb.2 .elsif (fun _ h => h) hm.2.2 hlater
    exact ⟨htag condition hm.1, hbody.1, hbody.2, hrest⟩

end

namespace Template

/-- Every template that a source is parsed to is well-formed. Where comparisons and filters stand the types of
expressions say; names, numbers, first tests and texts are shown of lexers and parsers. -/
theorem wellFormed_of_parse {source : String} {t : Template} (h : parse source = .ok t) : t.WellFormed := by
  obtain ⟨bodies, hstand, -, hspelled⟩ := parse_eq_ok_iff.mp h
  have hseparated : Separated bodies := stand_nil_iff_separated.mp hstand
  have hmarks : ∀ m ∈ t.marks, m.WellFormed := Mark.wellFormed_of_separated hspelled.spells hseparated.clean
  have hapart : Mark.Apart t.marks := Mark.apart_of_separated hspelled.spells hseparated.mayPrecede
  obtain ⟨hnodes, hall⟩ := Node.allWellFormed_of_marks t.nodes hspelled.branched hmarks hapart
  exact ⟨hnodes, hall⟩

/-- Texts around tags, a loop over a filtered path, a comparison of filtered sides, and names that begin with the word
of a literal. -/
theorem wellFormed_of_parse_nested :
    ∃ t, parse ("a\x7b% for nilly in rows[0].cells | where: 'k', -1.5 %\x7db\x7b% if nilly.n >= 2 | minus: true_ %\x7d" ++
        "c\x7b% elsif false %\x7d\x7b% assign null_ = nilly['x'] | f | g: nil %\x7d\x7b% else %\x7dd" ++
        "\x7b\x7b null \x7d\x7d\x7b% endif %\x7d\x7b% endfor %\x7d") = .ok t ∧ t.nodes.length = 2 ∧ t.WellFormed := by
  have parsed (source : String) (h : (parse source).toOption.map (·.nodes.length) = some 2) :
      ∃ t, parse source = .ok t ∧ t.nodes.length = 2 ∧ t.WellFormed := by
    cases ht : parse source with
    | error e => simp [ht, Except.toOption] at h
    | ok t =>
      have hlength : t.nodes.length = 2 := by simpa [ht, Except.toOption] using h
      exact ⟨t, rfl, hlength, wellFormed_of_parse ht⟩
  exact parsed _ (by decide +kernel)

end Template

end TextTemplate
