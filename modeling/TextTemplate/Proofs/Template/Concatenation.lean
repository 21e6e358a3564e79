import TextTemplate.Proofs.Render.Dependence
import TextTemplate.Proofs.Source.RoundTrip
import TextTemplate.Proofs.Template.OpenBlocks

namespace TextTemplate

open Piece

namespace Piece

variable {front as bs : List Body} {a b : List Char}

theorem OpensAcross.widen (h : OpensAcross a b) (before behind : List Char) :
    OpensAcross (before ++ a) (b ++ behind) := by
  obtain ⟨hlast, hhead⟩ := h
  refine ⟨by rw [List.getLast?_append, hlast]; rfl, ?_⟩
  rcases hhead with hbrace | hpercent
  · exact .inl (by rw [List.head?_append, hbrace]; rfl)
  · exact .inr (by rw [List.head?_append, hpercent]; rfl)

/-- In front of a text there is a tag or nothing, and that stands whatever follows. -/
theorem stand_front_of_text {next other : List Char} {rest : List Body} (h : Stand next (front ++ .text a :: rest)) :
    Stand other front := by
  obtain ⟨hfront, htext⟩ := stand_append.mp h
  rcases List.eq_nil_or_concat' front with rfl | ⟨before, last, rfl⟩
  · trivial
  · cases last with
    | tag kind content => exact stand_tag_congr hfront
    | text content =>
      obtain ⟨-, hsplits, -⟩ := (stand_append.mp hfront).2
      exact absurd hsplits.opensOrEnds (not_opens_of_stand_text htext)

/-- Two sources of bodies that stand make up a source in which these stand, or all but two texts that meet. -/
theorem stand_concat (ha : Stand [] as) (hb : Stand [] bs) (hseam : ¬ OpensAcross (written as) (written bs)) :
    Stand [] (as ++ bs) ∨ ∃ front a b back, as = front ++ [.text a] ∧ bs = .text b :: back ∧
      Stand [] (front ++ .text (a ++ b) :: back) := by
  rcases List.eq_nil_or_concat' as with rfl | ⟨front, last, rfl⟩
  · exact .inl hb
  cases last with
  | tag kind content => exact .inl (stand_append.mpr ⟨stand_tag_congr ha, hb⟩)
  | text a =>
    obtain ⟨hne, hsplits, -⟩ := (stand_append.mp ha).2
    rcases bs with _ | ⟨⟨b⟩ | ⟨kind, content⟩, back⟩
    · rw [List.append_nil]
      exact .inl ha
    · -- Two texts meet, and neither would stand next to the other.
      obtain ⟨hmore, hsplitsMore, hback⟩ := hb
      have hapart : ¬ OpensAcross a b := by
        intro hacross
        have hwide := hacross.widen (written front) (written back)
        refine hseam ?_
        simpa using hwide
      refine .inr ⟨front, a, b, back, rfl, rfl, stand_append.mpr ⟨stand_front_of_text ha, ?_, ?_, hback⟩⟩
      · exact List.append_ne_nil_of_left_ne_nil hne b
      · exact hsplits.append hsplitsMore hmore hapart
    · -- The text ends at a tag, unless its last brace opens another one with the first of the tag.
      have hhead := head?_written_tag kind content back []
      refine .inl (stand_append.mpr ⟨stand_append.mpr ⟨stand_front_of_text ha, hne, ?_, trivial⟩, hb⟩)
      refine splits_iff.mpr ⟨(splits_iff.mp hsplits).1, opens_written_tag kind content back [], ?_⟩
      intro hbrace
      rw [List.append_nil] at hhead
      have hwide := OpensAcross.widen (b := written (.tag kind content :: back)) ⟨hbrace, .inl hhead⟩ (written front) []
      refine absurd ?_ hseam
      simpa using hwide

end Piece

/-- The last mark of a block is its closing tag. -/
theorem Chain.getLast?_marks (chain : Chain) (tag : Condition → Mark) : (chain.marks tag).getLast? = some .endif := by
  cases chain with
  | stop => rfl
  | otherwise body => rw [marks, List.getLast?_concat]
  | test condition body rest => rw [marks, List.getLast?_append, rest.getLast?_marks]; rfl

namespace Node

variable {nodes : List Node} {ms : List Mark} {content : String}

theorem exists_of_marksAll_eq_concat_text (h : marksAll nodes = ms ++ [.text content]) :
    ∃ front, nodes = front ++ [.text content] ∧ marksAll front = ms := by
  rcases List.eq_nil_or_concat' nodes with rfl | ⟨front, last, rfl⟩
  · simp [marksAll] at h
  rw [marksAll_append, marksAll_singleton] at h
  have hlast := congrArg List.getLast? h
  rw [List.getLast?_append, List.getLast?_concat] at hlast
  cases last with
  | text other =>
    obtain ⟨hfront, htext⟩ := List.append_inj' h rfl
    cases htext
    exact ⟨front, rfl, hfront⟩
  | output e | assign name e => cases hlast
  | conditional chain => rw [marks, chain.getLast?_marks] at hlast; cases hlast
  | loop name source body => rw [marks, List.getLast?_concat] at hlast; cases hlast

theorem exists_of_marksAll_eq_cons_text (h : marksAll nodes = .text content :: ms) :
    ∃ back, nodes = .text content :: back ∧ marksAll back = ms := by
  rcases nodes with _ | ⟨node, back⟩
  · cases h
  rw [marksAll] at h
  cases node with
  | text other =>
    cases h
    exact ⟨back, rfl, rfl⟩
  | output e | assign name e | loop name source body => cases h
  | conditional chain => cases chain <;> cases h

end Node

namespace Template

variable {t : Template} {front back : List Body} {a b : List Char}

/-- A template that ends with a text has it as its last node. -/
theorem SpelledBy.exists_of_concat_text (h : t.SpelledBy (front ++ [.text a])) :
    ∃ nodes, t.nodes = nodes ++ [.text (String.ofList a)] ∧ SpelledBy ⟨nodes⟩ front := by
  -- The marks are cut where the bodies are.
  have hfront := (List.forall₂_take_append _ _ _ h.spells.flip).flip
  have htext := (List.forall₂_drop_append _ _ _ h.spells.flip).flip
  have hmarks := List.take_append_drop front.length t.marks
  generalize t.marks.take front.length = ms at hfront hmarks
  generalize t.marks.drop front.length = last at htext hmarks
  obtain ⟨m, _, hm, ⟨⟩, rfl⟩ := List.forall₂_cons_left_iff.mp htext
  cases hm
  obtain ⟨nodes, hnodes, hms⟩ := Node.exists_of_marksAll_eq_concat_text hmarks.symm
  have hbranched := h.branched
  rw [hnodes, Node.allBranched_append] at hbranched
  refine ⟨nodes, hnodes, hbranched.1, ?_⟩
  change List.Forall₂ _ front (Node.marksAll nodes)
  rw [hms]
  exact hfront

/-- A template that begins with a text has it as its first node. -/
theorem SpelledBy.exists_of_cons_text (h : t.SpelledBy (.text b :: back)) :
    ∃ nodes, t.nodes = .text (String.ofList b) :: nodes ∧ SpelledBy ⟨nodes⟩ back := by
  obtain ⟨m, ms, hm, hback, hmarks⟩ := List.forall₂_cons_left_iff.mp h.spells
  cases hm
  obtain ⟨nodes, hnodes, hms⟩ := Node.exists_of_marksAll_eq_cons_text hmarks
  have hbranched := h.branched
  rw [hnodes] at hbranched
  refine ⟨nodes, hnodes, hbranched.2, ?_⟩
  change List.Forall₂ _ back (Node.marksAll nodes)
  rw [hms]
  exact hback

theorem SpelledBy.append {as bs : List Node} (ha : SpelledBy ⟨as⟩ front) (hb : SpelledBy ⟨bs⟩ back) :
    SpelledBy ⟨as ++ bs⟩ (front ++ back) := by
  refine ⟨(Node.allBranched_append as bs).mpr ⟨ha.branched, hb.branched⟩, ?_⟩
  change List.Forall₂ _ (front ++ back) (Node.marksAll (as ++ bs))
  rw [Node.marksAll_append]
  exact List.rel_append ha.spells hb.spells

/-- Two texts in a row write what they write as one. -/
theorem renderAll_texts (registry : Registry) (context : Context) (as bs : List Node) (s s' : String) (d : Draft) :
    Node.renderAll registry context (as ++ .text (s ++ s') :: bs) d =
      Node.renderAll registry context ((as ++ [.text s]) ++ .text s' :: bs) d := by
  rw [List.append_assoc, Node.renderAll_append, Node.renderAll_append]
  congr 1
  funext e
  change Node.renderAll registry context bs (e.write (s ++ s')) =
    Node.renderAll registry context bs ((e.write s).write s')
  simp only [Draft.write, String.append_assoc]

variable {t₁ t₂ : Template} {source₁ source₂ : String}

/-- Unless a tag opens where they meet, two sources make up one that renders the nodes of the first, then those of
the second. -/
theorem exists_parse_append (h₁ : parse source₁ = .ok t₁) (h₂ : parse source₂ = .ok t₂)
    (hseam : ¬ OpensAcross source₁.toList source₂.toList) : ∃ t, parse (source₁ ++ source₂) = .ok t ∧
      ∀ registry context d, Node.renderAll registry context t.nodes d =
        Node.renderAll registry context (t₁.nodes ++ t₂.nodes) d := by
  obtain ⟨as, ha, rfl, hspelled₁⟩ := parse_eq_ok_iff.mp h₁
  obtain ⟨bs, hb, rfl, hspelled₂⟩ := parse_eq_ok_iff.mp h₂
  rw [Body.source, Body.source, String.toList_ofList, String.toList_ofList] at hseam
  -- Where two texts became one the nodes differ, so only the renders can be compared.
  rcases stand_concat ha hb hseam with happart | ⟨front, a, b, back, rfl, rfl, hstand⟩
  · refine ⟨⟨t₁.nodes ++ t₂.nodes⟩, parse_eq_ok_iff.mpr ⟨as ++ bs, happart, ?_, hspelled₁.append hspelled₂⟩, ?_⟩
    · exact Body.source_append as bs
    · exact fun _ _ _ => rfl
  · obtain ⟨left, hleft, hfront⟩ := hspelled₁.exists_of_concat_text
    obtain ⟨right, hright, hback⟩ := hspelled₂.exists_of_cons_text
    have hmerged : SpelledBy ⟨.text (String.ofList (a ++ b)) :: right⟩ (.text (a ++ b) :: back) :=
      ⟨⟨trivial, hback.branched⟩, .cons .text hback.spells⟩
    refine ⟨⟨left ++ .text (String.ofList (a ++ b)) :: right⟩,
      parse_eq_ok_iff.mpr ⟨_, hstand, ?_, hfront.append hmerged⟩, ?_⟩
    · rw [← Body.source_append]
      simp [Body.source]
    · intro registry context d
      rw [hleft, hright, String.ofList_append]
      exact renderAll_texts registry context left right _ _ d

/-- The later nodes find what the earlier ones leave bound, and write behind them. -/
theorem render_append (as bs : List Node) (registry : Registry) (context : Context) :
    render ⟨as ++ bs⟩ registry context = do
      let left ← Node.renderAll registry context as Draft.empty
      let right ← Node.renderAll registry context bs ⟨left.scope, ""⟩
      return left.output ++ right.output := by
  rw [render_eq_written, Node.written, Node.renderAll_append]
  cases Node.renderAll registry context as Draft.empty with
  | error e => rfl
  | ok left =>
    change Node.written registry context bs left = do
      let right ← Node.renderAll registry context bs ⟨left.scope, ""⟩
      return left.output ++ right.output
    rw [Node.written_behind registry context bs left.scope left.output, Node.written]
    cases Node.renderAll registry context bs ⟨left.scope, ""⟩ <;> rfl

/-- Nodes that do not read what the earlier ones assign are rendered as if they stood alone. -/
theorem render_append_of_free {as bs : List Node} (h : ∀ name ∈ Node.freeAll bs, name ∉ Node.assignedAll as)
    (registry : Registry) (context : Context) : render ⟨as ++ bs⟩ registry context = do
      let left ← render ⟨as⟩ registry context
      let right ← render ⟨bs⟩ registry context
      return left ++ right := by
  rw [render_append, render]
  cases hleft : Node.renderAll registry context as Draft.empty with
  | error e => rfl
  | ok left =>
    have halone : Node.written registry context bs ⟨left.scope, ""⟩ =
        Node.written registry context bs Draft.empty := by
      refine Node.written_eq_of_free ?_ (fun _ _ => rfl) rfl
      intro name hname
      have hunbound := Node.get?_of_renderAll as hleft (h name hname)
      exact Scope.over_congr context hunbound
    change (do
      let right ← Node.renderAll registry context bs ⟨left.scope, ""⟩
      return left.output ++ right.output) = do
        let right ← render ⟨bs⟩ registry context
        return left.output ++ right
    rw [render_eq_written, ← halone, Node.written]
    cases Node.renderAll registry context bs ⟨left.scope, ""⟩ <;> rfl

/-- Two templates whose sources meet without opening a tag there make up a template, which writes what the first
writes and then what the second writes under the bindings left by the first. -/
theorem render_concat (h₁ : parse source₁ = .ok t₁) (h₂ : parse source₂ = .ok t₂)
    (hseam : ¬ OpensAcross source₁.toList source₂.toList) :
    ∃ t, parse (source₁ ++ source₂) = .ok t ∧ ∀ registry context,
      (t.render registry context = do
        let left ← Node.renderAll registry context t₁.nodes Draft.empty
        let right ← Node.renderAll registry context t₂.nodes ⟨left.scope, ""⟩
        return left.output ++ right.output) ∧
      ((∀ name ∈ Node.freeAll t₂.nodes, name ∉ Node.assignedAll t₁.nodes) →
        t.render registry context = do
          let left ← t₁.render registry context
          let right ← t₂.render registry context
          return left ++ right) := by
  obtain ⟨t, hparse, hrender⟩ := exists_parse_append h₁ h₂ hseam
  refine ⟨t, hparse, ?_⟩
  intro registry context
  have hnodes : t.render registry context = render ⟨t₁.nodes ++ t₂.nodes⟩ registry context := by
    rw [render, render, hrender]
  rw [hnodes]
  exact ⟨render_append t₁.nodes t₂.nodes registry context, fun hfree => render_append_of_free hfree registry context⟩

/-- Two texts become one, and the second template has a loop over the name that the first assigns. -/
theorem render_concat_loop :
    let source₁ := "\x7b% assign n = 'x' %\x7da\x7b"
    let source₂ := "b\x7b% for n in m %\x7d\x7b\x7b n \x7d\x7d\x7b% endfor %\x7d"
    let context : Context := ⟨[("m", .array [.string "c", .string "d"]), ("n", .string "hidden")]⟩
    ∃ t₁ t₂ t, parse source₁ = .ok t₁ ∧ parse source₂ = .ok t₂ ∧ parse (source₁ ++ source₂) = .ok t ∧
      t₁.render Registry.empty context = .ok "a\x7b" ∧ t₂.render Registry.empty context = .ok "bcd" ∧
      t.render Registry.empty context = .ok "a\x7bbcd" := by
  intro source₁ source₂ context
  have hseam : ¬ OpensAcross source₁.toList source₂.toList := by
    intro hacross
    exact absurd hacross.2 (by decide)
  have hparts : ((parse source₁).toOption.bind fun (t₁ : Template) =>
      (parse source₂).toOption.map fun (t₂ : Template) => decide (
        (∀ name ∈ Node.freeAll t₂.nodes, name ∉ Node.assignedAll t₁.nodes) ∧
        (t₁.render Registry.empty context).toOption = some "a\x7b" ∧
        (t₂.render Registry.empty context).toOption = some "bcd")) = some true := by
    decide +kernel
  have hok {x : Except RenderError String} {text : String} (h : x.toOption = some text) : x = .ok text := by
    cases x with
    | error e => cases h
    | ok found => exact congrArg Except.ok (Option.some.inj h)
  cases h₁ : parse source₁ with
  | error e => simp [h₁, Except.toOption] at hparts
  | ok t₁ =>
    cases h₂ : parse source₂ with
    | error e => simp [h₁, h₂, Except.toOption] at hparts
    | ok t₂ =>
      rw [h₁, h₂] at hparts
      obtain ⟨hfree, hleft, hright⟩ := of_decide_eq_true (Option.some.inj hparts)
      obtain ⟨t, hparse, hrender⟩ := render_concat h₁ h₂ hseam
      refine ⟨t₁, t₂, t, rfl, rfl, hparse, hok hleft, hok hright, ?_⟩
      rw [(hrender Registry.empty context).2 hfree, hok hleft, hok hright]
      rfl

end Template

end TextTemplate
