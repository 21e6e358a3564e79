import Mathlib.Logic.Basic
import TextTemplate.Proofs.Source.Order
import TextTemplate.Proofs.Template.ContentFaults
import TextTemplate.Proofs.Template.OpenBlocks

namespace TextTemplate

open Outcome Piece

/-- The error is at a tag or within its content. -/
def TemplateError.IsAt (e : TemplateError) (place : Place) (content : List Char) : Prop :=
  e.place = place ∨ ∃ offset, e.place = locate place content offset

theorem TemplateError.ComesOf.isAt {e : TemplateError} {place : Place} {content : List Char}
    (h : e.ComesOf place content) : e.IsAt place content := by
  obtain ⟨hplace, -⟩ | ⟨syntactic, -, he⟩ := h
  · exact .inl hplace
  · exact .inr ⟨syntactic.span.start, by rw [he]; rfl⟩

namespace Progress

variable {p : Progress} {e : TemplateError}

/-- Only tags are rejected, and the error lies in the tag that is. -/
theorem covers_of_step {piece : Piece} (h : p.step piece = .error e) :
    (∃ kind content, piece.body = .tag kind content) ∧ piece.Covers e.place.line e.place.column := by
  obtain ⟨kind, content, hbody, hcomes⟩ := comesOf_of_step h
  refine ⟨⟨kind, content, hbody⟩, ?_⟩
  obtain ⟨body, place, stop⟩ := piece
  subst hbody
  obtain hplace | ⟨offset, hplace⟩ := hcomes.isAt
  · rw [hplace]
    exact covers_place place stop
  · rw [hplace]
    exact covers_locate stop offset

theorem kind_and_place_of_finish (h : p.finish = .error e) :
    e.fault.kind = .unbalancedTag ∧ ∃ innermost, p.openBlocks.head? = some innermost ∧
      e.place = innermost.place := by
  obtain ⟨frames, body⟩ := p
  rcases frames with _ | ⟨⟨⟨done, pending⟩ | ⟨name, source⟩, opened, before⟩, below⟩ <;> cases h
  · exact ⟨rfl, _, rfl, rfl⟩
  · exact ⟨rfl, _, rfl, rfl⟩

end Progress

def Piece.sourceOf (pieces : List Piece) : String :=
  Body.source (pieces.map (·.body))

theorem Piece.sourceOf_append (front back : List Piece) :
    sourceOf (front ++ back) = sourceOf front ++ sourceOf back := by
  rw [sourceOf, List.map_append, Body.source_append]
  rfl

theorem Piece.sourceOf_layOut (p : Place) (bodies : List Body) :
    sourceOf (layOut p bodies) = Body.source bodies := by
  rw [sourceOf, map_body_layOut]

namespace Template

variable {source : String} {e : TemplateError}

/-- The error is in the tag between `front` and `back`. With the open blocks closed, the source in front of that tag
is a template; behind the tag no continuation is one, and each that has whole tags fails with the same error. -/
structure FailsAt (source : String) (e : TemplateError) (front : List Piece) (tag : Piece)
    (back : List Piece) : Prop where
  cut : source = sourceOf front ++ sourceOf [tag] ++ sourceOf back
  isTag : ∃ kind content, tag.body = .tag kind content
  covered : tag.Covers e.place.line e.place.column
  alone : ∀ other ∈ front ++ back, ¬ other.Covers e.place.line e.place.column
  viable : ∃ t, parse (sourceOf front ++ OpenBlock.closing (OpenBlock.behind front)) = .ok t
  doomed : ∀ rest : String, ∃ fault, parse (sourceOf front ++ sourceOf [tag] ++ rest) = .error fault ∧
    ∀ scanned, scan (sourceOf front ++ sourceOf [tag] ++ rest) = .ok scanned → fault = e

/-- The error is the opening tag of the innermost block that is open at the end, and with a blank and the closing
tags behind it the source is a template. -/
structure LeftOpen (source : String) (e : TemplateError) (pieces : List Piece) : Prop where
  kind : e.fault.kind = .unbalancedTag
  place : ∃ innermost, (OpenBlock.behind pieces).head? = some innermost ∧ e.place = innermost.place
  viable : ∃ t, parse (source ++ " " ++ OpenBlock.closing (OpenBlock.behind pieces)) = .ok t

/-- What is read up to an error decides it, however the source goes on. -/
theorem exists_parse_eq_error {bodies : List Body} {rest : String} (hstand : Stand rest.toList bodies)
    (hread : Progress.start.readAll (layOut Place.start bodies) = .error e) :
    ∃ fault, parse (Body.source bodies ++ rest) = .error fault ∧
      ∀ scanned, scan (Body.source bodies ++ rest) = .ok scanned → fault = e := by
  have hscan := scan_source_append hstand
  cases hrest : scanFrom (Place.start.after (written bodies)) rest.toList with
  | error unterminated =>
    rw [hrest] at hscan
    refine ⟨.ofUnterminated unterminated, ?_, ?_⟩
    · rw [parse, hscan]
      rfl
    · intro scanned hok
      rw [hscan] at hok
      cases hok
  | ok more =>
    rw [hrest] at hscan
    refine ⟨e, ?_, fun _ _ => rfl⟩
    have hall : Progress.start.readAll (layOut Place.start bodies ++ more.pieces) = .error e := by
      rw [Progress.readAll_append, hread]
      rfl
    rw [parse, hscan]
    change (Progress.start.readAll (layOut Place.start bodies ++ more.pieces) >>= Progress.finish) = _
    rw [hall]
    rfl

theorem failsAt_of_step {bodies : List Body} (hstand : Stand [] bodies) {front back : List Piece} {tag : Piece}
    (hpieces : layOut Place.start bodies = front ++ tag :: back) {p : Progress}
    (hfront : Progress.start.readAll front = .ok p) (hstep : p.step tag = .error e) :
    FailsAt (Body.source bodies) e front tag back := by
  obtain ⟨⟨kind, content, hbody⟩, hcovered⟩ := Progress.covers_of_step hstep
  have hread : Progress.start.readAll (front ++ [tag]) = .error e := by
    rw [Progress.readAll_append, hfront]
    change p.readAll [tag] = _
    rw [Progress.readAll_cons, hstep]
    rfl
  have hsource : Body.source bodies = sourceOf front ++ sourceOf [tag] ++ sourceOf back := by
    rw [← sourceOf_append, ← sourceOf_append, List.append_assoc, List.singleton_append, ← hpieces,
      sourceOf_layOut]
  obtain ⟨before, behind, rfl, hbefore, hupTo⟩ := exists_of_layOut_eq_append_cons hpieces
  rw [hbody] at hstand hupTo
  refine ⟨hsource, ⟨kind, content, hbody⟩, hcovered, not_covers_of_covers hpieces hcovered, ?_, ?_⟩
  · rw [← Progress.openBlocks_of_start hfront, hbefore, sourceOf_layOut]
    refine exists_parse_closing ?_ (hbefore ▸ hfront)
    exact stand_of_opens (stand_append.mp hstand).1 (head?_written_tag kind content behind [])
      (OpenBlock.opensOrEnds_closingTags p.openBlocks)
  · intro rest
    rw [← sourceOf_append, hupTo, sourceOf_layOut]
    refine exists_parse_eq_error ?_ (hupTo ▸ hread)
    rw [List.append_cons] at hstand
    exact stand_tag_congr (stand_append.mp hstand).1

theorem leftOpen_of_finish {bodies : List Body} (hstand : Stand [] bodies) {p : Progress}
    (hread : Progress.start.readAll (layOut Place.start bodies) = .ok p) (hfinish : p.finish = .error e) :
    LeftOpen (Body.source bodies) e (layOut Place.start bodies) := by
  obtain ⟨hkind, hplace⟩ := Progress.kind_and_place_of_finish hfinish
  have hblocks := Progress.openBlocks_of_start hread
  rw [hblocks] at hplace
  refine ⟨hkind, hplace, ?_⟩
  obtain ⟨q, hblank, hsame⟩ := Progress.exists_readAll_endBlank hread
  have hsource : Body.source bodies ++ " " = Body.source (endBlank bodies) := by
    apply String.toList_inj.mp
    have hwritten := written_endBlank bodies
    simpa [Body.source, written] using hwritten.symm
  rw [hsource, ← hblocks, ← hsame]
  exact exists_parse_closing (stand_endBlank hstand (OpenBlock.opensOrEnds_closingTags q.openBlocks)) hblank

/-- The continuation that would close all blocks is one of those that are doomed. -/
theorem FailsAt.not_leftOpen {front back pieces : List Piece} {tag : Piece} (h : FailsAt source e front tag back) :
    ¬ LeftOpen source e pieces := by
  intro hopen
  obtain ⟨t, ht⟩ := hopen.viable
  obtain ⟨fault, hfault, -⟩ := h.doomed (sourceOf back ++ " " ++ OpenBlock.closing (OpenBlock.behind pieces))
  have hsame : sourceOf front ++ sourceOf [tag] ++
      (sourceOf back ++ " " ++ OpenBlock.closing (OpenBlock.behind pieces)) =
        source ++ " " ++ OpenBlock.closing (OpenBlock.behind pieces) := by
    rw [h.cut]
    simp only [String.append_assoc]
  rw [hsame, ht] at hfault
  cases hfault

/-- A source of whole tags that is not a template fails at exactly one of its tags, the first that cannot stand where
it is, or leaves a block open at its end; never both. -/
theorem parse_fails_at_first_impossible_tag {scanned : Scanned} (hscan : scan source = .ok scanned)
    (hparse : parse source = .error e) :
    Xor (∃ front tag back, scanned.pieces = front ++ tag :: back ∧ FailsAt source e front tag back)
      (LeftOpen source e scanned.pieces) := by
  obtain ⟨bodies, hpieces, hstand, rfl⟩ := exists_layOut_of_scan hscan
  rw [parse_source hstand] at hparse
  rw [hpieces]
  obtain hread | ⟨p, hread, hfinish⟩ := bind_eq_error_iff.mp hparse
  · obtain ⟨front, tag, back, p, hcut, hfront, hstep⟩ := exists_of_foldlM_eq_error hread
    have hfails := failsAt_of_step hstand hcut hfront hstep
    exact .inl ⟨⟨front, tag, back, hcut, hfails⟩, hfails.not_leftOpen⟩
  · have hopen := leftOpen_of_finish hstand hread hfinish
    refine .inr ⟨hopen, ?_⟩
    intro hfails
    obtain ⟨front, tag, back, -, hfails⟩ := hfails
    exact hfails.not_leftOpen hopen

/-- A tag of unknown name within an open block. -/
theorem failsAt_unknown_tag :
    ∃ front tag back, FailsAt "\x7b% if a %\x7dx\x7b% widget %\x7dy"
      ⟨.unknownTag "widget", ⟨11, 1, 12⟩⟩ front tag back := by
  have fails (source : String) (e : TemplateError) (hscan : (scan source).isOk)
      (hparse : (match parse source with | .ok _ => none | .error found => some found) = some e)
      (hkind : e.fault.kind ≠ .unbalancedTag) : ∃ front tag back, FailsAt source e front tag back := by
    cases hs : scan source with
    | error _ => simp [hs, Except.isOk, Except.toBool] at hscan
    | ok scanned =>
      cases hp : parse source with
      | ok t => simp [hp] at hparse
      | error found =>
        rw [hp] at hparse
        obtain rfl : found = e := Option.some.inj hparse
        obtain ⟨hfails, -⟩ | ⟨hopen, -⟩ := parse_fails_at_first_impossible_tag hs hp
        · obtain ⟨front, tag, back, -, hfails⟩ := hfails
          exact ⟨front, tag, back, hfails⟩
        · exact absurd hopen.kind hkind
  exact fails _ _ (by decide +kernel) (by decide +kernel) (by decide)

end Template

end TextTemplate
