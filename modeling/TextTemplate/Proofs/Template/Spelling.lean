import TextTemplate.Proofs.Template.Nesting

namespace TextTemplate

open Outcome

/-- Pieces that spell marks, each its own. -/
abbrev Spelling (pieces : List Piece) (marks : List Mark) : Prop :=
  List.Forall₂ (fun piece m => piece.body.Spells m) pieces marks

theorem Spelling.exists_of_append {pieces : List Piece} {ms ns : List Mark}
    (h : Spelling pieces (ms ++ ns)) :
    ∃ front back, pieces = front ++ back ∧ Spelling front ms ∧ Spelling back ns := by
  refine ⟨pieces.take ms.length, pieces.drop ms.length, (List.take_append_drop _ _).symm, ?_, ?_⟩
  · exact List.forall₂_take_append pieces ms ns h
  · exact List.forall₂_drop_append pieces ms ns h

theorem Spelling.exists_of_cons {pieces : List Piece} {m : Mark} {ms : List Mark}
    (h : Spelling pieces (m :: ms)) :
    ∃ piece rest, pieces = piece :: rest ∧ piece.body.Spells m ∧ Spelling rest ms := by
  cases h with
  | cons hm hms => exact ⟨_, _, rfl, hm, hms⟩

namespace Chain

/-- The mark in front of the branch that follows finished branches. -/
def branchTag (tag : Condition → Mark) : List (Condition × List Node) → Condition → Mark
  | [] => tag
  | _ :: _ => .elsif

def branchMarks (tag : Condition → Mark) : List (Condition × List Node) → List Mark
  | [] => []
  | (condition, body) :: rest => tag condition :: Node.marksAll body ++ branchMarks .elsif rest

variable {tag : Condition → Mark} {done : List (Condition × List Node)}

theorem branchTag_concat (condition : Condition) (body : List Node) :
    branchTag tag (done ++ [(condition, body)]) = .elsif := by
  cases done <;> rfl

theorem branchMarks_concat (condition : Condition) (body : List Node) :
    branchMarks tag (done ++ [(condition, body)]) =
      branchMarks tag done ++ branchTag tag done condition :: Node.marksAll body := by
  induction done generalizing tag with
  | nil => simp [branchMarks, branchTag]
  | cons branch rest ih =>
    rw [List.cons_append, branchMarks, branchMarks, ih, List.append_assoc]
    cases rest <;> rfl

theorem marks_ofBranches (last : Chain) :
    (ofBranches done last).marks tag = branchMarks tag done ++ last.marks (branchTag tag done) := by
  induction done generalizing tag with
  | nil => rfl
  | cons branch rest ih =>
    rw [ofBranches_cons, marks, ih, branchMarks, List.append_assoc]
    cases rest <;> rfl

theorem branched_ofBranches {last : Chain} :
    (ofBranches done last).Branched ↔ (∀ branch ∈ done, Node.AllBranched branch.2) ∧ last.Branched := by
  induction done with
  | nil => simp [ofBranches]
  | cons branch rest ih => rw [ofBranches_cons, Branched, ih, List.forall_mem_cons, and_assoc]

theorem beginsWithTest_ofBranches (h : done ≠ []) (last : Chain) : (ofBranches done last).BeginsWithTest := by
  cases done with
  | nil => exact absurd rfl h
  | cons branch rest => trivial

end Chain

/-- The marks of the part of a block that is read. -/
def Block.marks : Block → List Mark
  | .conditional done (some condition) =>
    Chain.branchMarks .conditional done ++ [Chain.branchTag .conditional done condition]
  | .conditional done none => Chain.branchMarks .conditional done ++ [.otherwise]
  | .loop name source => [.loop name source]

/-- The finished branches of a block are branched, and only a block with one may be at its `else`. -/
def Block.Branched : Block → Prop
  | .conditional done pending =>
    (∀ branch ∈ done, Node.AllBranched branch.2) ∧ (pending = none → done ≠ [])
  | .loop _ _ => True

namespace Progress

def frameMarks : List Frame → List Mark
  | [] => []
  | frame :: below => frameMarks below ++ Node.marksAll frame.before.toList ++ frame.block.marks

/-- The marks of what is read so far. -/
def marks (p : Progress) : List Mark :=
  frameMarks p.frames ++ Node.marksAll p.body.toList

structure Branched (p : Progress) : Prop where
  frames : ∀ frame ∈ p.frames, frame.block.Branched ∧ Node.AllBranched frame.before.toList
  body : Node.AllBranched p.body.toList

variable {p p' : Progress} {place : Place} {m : Mark}

theorem marks_push (node : Node) : (p.push node).marks = p.marks ++ node.marks := by
  rw [marks, marks, push, Array.toList_push, Node.marksAll_append, Node.marksAll_singleton,
    List.append_assoc]

theorem marks_enter (block : Block) : (p.enter block place).marks = p.marks ++ block.marks := by
  simp [marks, enter, frameMarks, Node.marksAll]

theorem marks_of_take? (h : p.take? place m = some p') : p'.marks = p.marks ++ [m] := by
  cases taken_of_take? h with
  | text | output | assign => exact marks_push _
  | conditional | loop => exact marks_enter _
  | elsif =>
    simp [marks, frameMarks, Block.marks, Chain.branchMarks_concat, Chain.branchTag_concat, Node.marksAll]
  | otherwise => simp [marks, frameMarks, Block.marks, Chain.branchMarks_concat, Node.marksAll]
  | endif =>
    simp [marks, frameMarks, Block.marks, Node.marksAll_append, Node.marksAll, Node.marks,
      Chain.marks_ofBranches, Chain.marks, Chain.branchMarks_concat]
  | endifBehindElse =>
    simp [marks, frameMarks, Block.marks, Node.marksAll_append, Node.marksAll, Node.marks,
      Chain.marks_ofBranches, Chain.marks]
  | endfor => simp [marks, frameMarks, Block.marks, Node.marksAll_append, Node.marksAll, Node.marks]

theorem Branched.push (hp : p.Branched) {node : Node} (hnode : node.Branched) : (p.push node).Branched := by
  refine ⟨hp.frames, ?_⟩
  rw [Progress.push, Array.toList_push, Node.allBranched_append, Node.allBranched_singleton]
  exact ⟨hp.body, hnode⟩

theorem Branched.enter (hp : p.Branched) {block : Block} (hblock : block.Branched) :
    (p.enter block place).Branched := by
  refine ⟨?_, trivial⟩
  intro frame hframe
  rcases List.mem_cons.mp hframe with rfl | hbelow
  · exact ⟨hblock, hp.body⟩
  · exact hp.frames frame hbelow

/-- The innermost block goes on with another branch. -/
theorem Branched.resume {frame : Frame} {below : List Frame} {body : Array Node}
    (hp : Branched ⟨frame :: below, body⟩) {block : Block} (hblock : block.Branched) :
    Branched ⟨{ frame with block := block } :: below, #[]⟩ := by
  refine ⟨?_, trivial⟩
  intro other hother
  rcases List.mem_cons.mp hother with rfl | hbelow
  · exact ⟨hblock, (hp.frames frame List.mem_cons_self).2⟩
  · exact hp.frames other (List.mem_cons_of_mem _ hbelow)

/-- The innermost block is closed and becomes a node. -/
theorem Branched.leave {frame : Frame} {below : List Frame} {body : Array Node}
    (hp : Branched ⟨frame :: below, body⟩) {node : Node} (hnode : node.Branched) :
    Branched ⟨below, frame.before.push node⟩ := by
  have hbelow : Branched ⟨below, frame.before⟩ :=
    ⟨fun other hother => hp.frames other (List.mem_cons_of_mem _ hother),
      (hp.frames frame List.mem_cons_self).2⟩
  exact hbelow.push hnode

/-- The branch at hand is finished. -/
theorem Branched.finished {done : List (Condition × List Node)} {condition : Condition} {opened : Place}
    {before body : Array Node} {below : List Frame}
    (hp : Branched ⟨⟨.conditional done (some condition), opened, before⟩ :: below, body⟩) :
    ∀ branch ∈ done ++ [(condition, body.toList)], Node.AllBranched branch.2 := by
  intro branch hbranch
  rcases List.mem_append.mp hbranch with hdone | hlast
  · exact (hp.frames _ List.mem_cons_self).1.1 branch hdone
  · rw [List.mem_singleton.mp hlast]
    exact hp.body

theorem branched_of_take? (hp : p.Branched) (h : p.take? place m = some p') : p'.Branched := by
  cases taken_of_take? h with
  | text | output | assign => exact hp.push trivial
  | conditional | loop => exact hp.enter (by simp [Block.Branched])
  | elsif | otherwise => exact hp.resume ⟨hp.finished, by simp⟩
  | endif =>
    exact hp.leave ⟨Chain.beginsWithTest_ofBranches (by simp) _,
      Chain.branched_ofBranches.mpr ⟨hp.finished, trivial⟩⟩
  | endifBehindElse =>
    have hblock := (hp.frames _ List.mem_cons_self).1
    exact hp.leave ⟨Chain.beginsWithTest_ofBranches (hblock.2 rfl) _,
      Chain.branched_ofBranches.mpr ⟨hblock.1, hp.body⟩⟩
  | endfor => exact hp.leave hp.body

def readAll (p : Progress) (pieces : List Piece) : Except TemplateError Progress :=
  pieces.foldlM step p

@[simp] theorem readAll_nil : p.readAll [] = .ok p := rfl

theorem readAll_append (front back : List Piece) :
    p.readAll (front ++ back) = p.readAll front >>= fun q => q.readAll back := by
  rw [readAll, List.foldlM_append]
  rfl

theorem readAll_cons (piece : Piece) (rest : List Piece) :
    p.readAll (piece :: rest) = p.step piece >>= fun q => q.readAll rest := by
  rw [readAll, List.foldlM_cons]
  rfl

theorem spelling_of_readAll {pieces : List Piece} (hp : p.Branched) (h : p.readAll pieces = .ok p') :
    p'.Branched ∧ ∃ ms, Spelling pieces ms ∧ p'.marks = p.marks ++ ms := by
  induction pieces generalizing p with
  | nil =>
    cases h
    exact ⟨hp, [], .nil, (List.append_nil _).symm⟩
  | cons piece rest ih =>
    rw [readAll_cons] at h
    obtain ⟨q, hstep, hrest⟩ := bind_eq_ok_iff.mp h
    obtain ⟨m, hm, htake⟩ := step_eq_ok_iff.mp hstep
    obtain ⟨hbranched, ms, hms, hmarks⟩ := ih (branched_of_take? hp htake) hrest
    refine ⟨hbranched, m :: ms, .cons hm hms, ?_⟩
    rw [hmarks, marks_of_take? htake, List.append_assoc]
    rfl

theorem readAll_of_take? {piece : Piece} {rest : List Piece} (hm : piece.body.Spells m)
    (h : p.take? piece.place m = some p') : p.readAll (piece :: rest) = p'.readAll rest := by
  rw [readAll_cons, step_eq_ok_iff.mpr ⟨m, hm, h⟩]
  rfl

end Progress

theorem Progress.push_append (p : Progress) (node : Node) (nodes : List Node) :
    (p.push node).body ++ nodes = p.body ++ (node :: nodes) := by
  apply Array.toList_inj.mp
  simp [Progress.push]

mutual

/-- Pieces that spell a node add that node. -/
theorem Node.readAll_of_spelling (node : Node) (hb : node.Branched) {pieces : List Piece}
    (h : Spelling pieces node.marks) (p : Progress) : p.readAll pieces = .ok (p.push node) := by
  cases node with
  | text | output | assign =>
    obtain ⟨piece, _, rfl, hm, ⟨⟩⟩ := h.exists_of_cons
    rw [Progress.readAll_of_take? hm rfl]
    rfl
  | conditional chain =>
    cases chain with
    | stop => exact absurd hb.1 id
    | otherwise body => exact absurd hb.1 id
    | test condition body rest =>
      obtain ⟨opening, tail, rfl, hopening, htail⟩ := h.exists_of_cons
      obtain ⟨inner, closing, rfl, hinner, hclosing⟩ := htail.exists_of_append
      rw [Progress.readAll_of_take? hopening rfl, Progress.readAll_append,
        Node.readAll_of_spellingAll body hb.2.1 hinner]
      have hrest := rest.readAll_of_spelling hb.2.2 hclosing [] condition opening.place p.body p.frames
        ((#[] : Array Node) ++ body)
      simpa [Progress.enter, bind, Except.bind, Progress.push, Chain.ofBranches] using hrest
  | loop name source body =>
    obtain ⟨opening, tail, rfl, hopening, htail⟩ := h.exists_of_cons
    obtain ⟨inner, closing, rfl, hinner, hclosing⟩ := htail.exists_of_append
    obtain ⟨last, _, rfl, hlast, ⟨⟩⟩ := hclosing.exists_of_cons
    rw [Progress.readAll_of_take? hopening rfl, Progress.readAll_append,
      Node.readAll_of_spellingAll body hb hinner]
    have hclose : Progress.readAll
        ⟨⟨.loop name source, opening.place, p.body⟩ :: p.frames, (#[] : Array Node) ++ body⟩ [last] =
        .ok ⟨p.frames, p.body.push (.loop name source ((#[] : Array Node) ++ body).toList)⟩ :=
      Progress.readAll_of_take? hlast rfl
    simpa [Progress.enter, bind, Except.bind, Progress.push] using hclose

theorem Node.readAll_of_spellingAll (nodes : List Node) (hb : Node.AllBranched nodes) {pieces : List Piece}
    (h : Spelling pieces (Node.marksAll nodes)) (p : Progress) :
    p.readAll pieces = .ok ⟨p.frames, p.body ++ nodes⟩ := by
  cases nodes with
  | nil =>
    cases h
    simp
  | cons node rest =>
    obtain ⟨front, back, rfl, hfront, hback⟩ := h.exists_of_append
    rw [Progress.readAll_append, node.readAll_of_spelling hb.1 hfront, ← Progress.push_append]
    exact Node.readAll_of_spellingAll rest hb.2 hback (p.push node)

/-- Pieces that spell the rest of a chain close its block, with the branch at hand as the last of those before
the rest. -/
theorem Chain.readAll_of_spelling (chain : Chain) (hb : chain.Branched) {pieces : List Piece}
    (h : Spelling pieces (chain.marks .elsif)) (done : List (Condition × List Node)) (condition : Condition)
    (opened : Place) (before : Array Node) (below : List Frame) (body : Array Node) :
    Progress.readAll ⟨⟨.conditional done (some condition), opened, before⟩ :: below, body⟩ pieces =
      .ok ⟨below, before.push
        (.conditional (Chain.ofBranches (done ++ [(condition, body.toList)]) chain))⟩ := by
  cases chain with
  | stop =>
    obtain ⟨last, _, rfl, hlast, ⟨⟩⟩ := h.exists_of_cons
    rw [Progress.readAll_of_take? hlast rfl]
    rfl
  | otherwise last =>
    obtain ⟨tag, tail, rfl, htag, htail⟩ := h.exists_of_cons
    obtain ⟨inner, closing, rfl, hinner, hclosing⟩ := htail.exists_of_append
    obtain ⟨close, _, rfl, hclose, ⟨⟩⟩ := hclosing.exists_of_cons
    rw [Progress.readAll_of_take? htag rfl, Progress.readAll_append,
      Node.readAll_of_spellingAll last hb hinner]
    have hend : Progress.readAll
        ⟨⟨.conditional (done ++ [(condition, body.toList)]) none, opened, before⟩ :: below,
          (#[] : Array Node) ++ last⟩ [close] =
        .ok ⟨below, before.push (.conditional (Chain.ofBranches (done ++ [(condition, body.toList)])
          (.otherwise ((#[] : Array Node) ++ last).toList)))⟩ :=
      Progress.readAll_of_take? hclose rfl
    simpa [bind, Except.bind] using hend
  | test next inner rest =>
    obtain ⟨tag, tail, rfl, htag, htail⟩ := h.exists_of_cons
    obtain ⟨front, back, rfl, hfront, hback⟩ := htail.exists_of_append
    rw [Progress.readAll_of_take? htag rfl, Progress.readAll_append,
      Node.readAll_of_spellingAll inner hb.1 hfront]
    have hrest := rest.readAll_of_spelling hb.2 hback (done ++ [(condition, body.toList)]) next opened before
      below ((#[] : Array Node) ++ inner)
    rw [Chain.ofBranches_concat] at hrest
    simpa [bind, Except.bind] using hrest

end

namespace Template

theorem ofPieces_eq_ok_iff {pieces : List Piece} {t : Template} :
    ofPieces pieces = .ok t ↔ ∃ body, Progress.start.readAll pieces = .ok ⟨[], body⟩ ∧ t = ⟨body.toList⟩ := by
  rw [ofPieces, bind_eq_ok_iff]
  constructor
  · rintro ⟨⟨frames, body⟩, hread, hfinish⟩
    rcases frames with _ | ⟨⟨⟨done, pending⟩ | ⟨name, source⟩, opened, before⟩, below⟩
    · exact ⟨body, hread, (Except.ok.inj hfinish).symm⟩
    · cases hfinish
    · cases hfinish
  · rintro ⟨body, hread, rfl⟩
    exact ⟨_, hread, rfl⟩

theorem ofPieces_eq_ok_iff_spelledBy {pieces : List Piece} {t : Template} :
    ofPieces pieces = .ok t ↔ t.SpelledBy (pieces.map (·.body)) := by
  rw [ofPieces_eq_ok_iff]
  constructor
  · rintro ⟨body, hread, rfl⟩
    have hstart : Progress.start.Branched := ⟨fun _ h => absurd h List.not_mem_nil, trivial⟩
    obtain ⟨hbranched, ms, hms, hmarks⟩ := Progress.spelling_of_readAll hstart hread
    refine ⟨hbranched.body, ?_⟩
    rw [List.forall₂_map_left_iff]
    have heq : Template.marks ⟨body.toList⟩ = ms := hmarks
    rw [heq]
    exact hms
  · rintro ⟨hbranched, hspells⟩
    rw [List.forall₂_map_left_iff] at hspells
    have hread := Node.readAll_of_spellingAll t.nodes hbranched hspells Progress.start
    exact ⟨_, hread, by simp [Progress.start]⟩

/-- A source parses to a template exactly if its pieces, in their order, spell the marks of that template, each piece
one mark, and the pieces determine the template. -/
theorem parse_eq_ok_iff_spelledBy {source : String} {scanned : Scanned}
    (hscan : Piece.scan source = .ok scanned) :
    (∀ t, Template.parse source = .ok t ↔ t.SpelledBy (scanned.pieces.map (·.body))) ∧
    ∀ t t' : Template, t.SpelledBy (scanned.pieces.map (·.body)) →
      t'.SpelledBy (scanned.pieces.map (·.body)) → t = t' := by
  have hparse : Template.parse source = ofPieces scanned.pieces := by
    rw [Template.parse, hscan]
  refine ⟨fun t => hparse ▸ ofPieces_eq_ok_iff_spelledBy, ?_⟩
  intro t t' ht ht'
  have h := ofPieces_eq_ok_iff_spelledBy.mpr ht
  have h' := ofPieces_eq_ok_iff_spelledBy.mpr ht'
  exact Except.ok.inj (h.symm.trans h')

/-- A loop around a block of three branches, one of them with an assignment. -/
theorem spelledBy_nested :
    ∃ (scanned : Scanned) (t : Template), Piece.scan ("\x7b% for x in xs %\x7d\x7b% if x == 1 %\x7da" ++
        "\x7b% elsif y %\x7d\x7b% assign z = x | upcase %\x7d\x7b% else %\x7d\x7b\x7b z \x7d\x7d" ++
        "\x7b% endif %\x7d\x7b% endfor %\x7d") = .ok scanned ∧
      scanned.pieces.length = 9 ∧ t.SpelledBy (scanned.pieces.map (·.body)) := by
  have spelled (source : String) (hscan : (Piece.scan source).toOption.map (·.pieces.length) = some 9)
      (hparse : (Template.parse source).toOption.isSome) :
      ∃ (scanned : Scanned) (t : Template), Piece.scan source = .ok scanned ∧
        scanned.pieces.length = 9 ∧ t.SpelledBy (scanned.pieces.map (·.body)) := by
    cases hs : Piece.scan source with
    | error e => simp [hs, Except.toOption] at hscan
    | ok scanned =>
      cases ht : Template.parse source with
      | error e => simp [ht, Except.toOption] at hparse
      | ok t =>
        refine ⟨scanned, t, rfl, ?_, ((parse_eq_ok_iff_spelledBy hs).1 t).mp ht⟩
        simpa [hs, Except.toOption] using hscan
  exact spelled _ (by decide +kernel) (by decide +kernel)

end Template

end TextTemplate
