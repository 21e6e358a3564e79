import TextTemplate.Proofs.Expr.TokenRun
import TextTemplate.Proofs.Source.RoundTrip
import TextTemplate.Proofs.Template.ContentFaults
import TextTemplate.Proofs.Template.FirstFault

namespace TextTemplate

open Piece

/-- The place of a byte of the content of a tag, counted from the tag, is the place of that byte in the source. -/
def Piece.LocatesIn (source : String) (place : Place) (content : List Char) (offset : Nat) : Prop :=
  (locate place content offset).TrueIn source ∧
    (locate place content offset).offset = place.offset + 2 + offset

/-- All places of a source that is cut into pieces. -/
structure Scanned.PlacesTrue (source : String) (s : Scanned) : Prop where
  pieces : ∀ piece ∈ s.pieces, piece.place.TrueIn source
  finish : s.finish.TrueIn source
  finish_eq : s.finish.offset = source.utf8ByteSize
  contents : ∀ piece ∈ s.pieces, ∀ kind before behind, piece.body = .tag kind (before ++ behind) →
    LocatesIn source piece.place (before ++ behind) (String.utf8Len before)

namespace Piece

variable {source : String} {scanned : Scanned}

theorem exists_front_of_scan (h : scan source = .ok scanned) {piece : Piece} (hpiece : piece ∈ scanned.pieces) :
    ∃ front back, source.toList = front ++ piece.body.written ++ back ∧ piece.place = Place.start.after front := by
  obtain ⟨bodies, hpieces, -, hwritten, -⟩ := stand_of_scanFrom h
  rw [hpieces] at hpiece
  obtain ⟨before, behind, hbodies, hplace, -⟩ := exists_of_mem_layOut hpiece
  refine ⟨written before, written behind, ?_, hplace⟩
  rw [← hwritten, hbodies]
  simp

theorem locatesIn_of_scan (h : scan source = .ok scanned) {piece : Piece} (hpiece : piece ∈ scanned.pieces)
    {kind : TagKind} {before behind : List Char} (hbody : piece.body = .tag kind (before ++ behind)) :
    LocatesIn source piece.place (before ++ behind) (String.utf8Len before) := by
  obtain ⟨front, back, hsource, hplace⟩ := exists_front_of_scan h hpiece
  have hlocate : locate piece.place (before ++ behind) (String.utf8Len before) =
      Place.start.after (front ++ kind.opener ++ before) := by
    rw [locate, ← after_opener kind, Place.within_append, hplace, Place.after_append, Place.after_append]
  have hcut : source.toList = front ++ kind.opener ++ before ++ (behind ++ kind.closer ++ back) := by
    rw [hsource, hbody]
    simp only [Body.written_tag, List.append_assoc]
  rw [LocatesIn, hlocate]
  refine ⟨Place.trueIn_start_after hcut, ?_⟩
  rw [Place.offset_start_after, hplace, Place.offset_start_after, String.utf8Len_append, String.utf8Len_append,
    utf8Len_opener]

theorem placesTrue_of_scan (h : scan source = .ok scanned) : scanned.PlacesTrue source := by
  obtain ⟨-, -, -, -, hfinish⟩ := stand_of_scanFrom h
  refine ⟨?_, ?_, (tiles_of_scan h).finish_eq, ?_⟩
  · intro piece hpiece
    obtain ⟨front, back, hsource, hplace⟩ := exists_front_of_scan h hpiece
    rw [List.append_assoc] at hsource
    rw [hplace]
    exact Place.trueIn_start_after hsource
  · rw [hfinish]
    exact Place.trueIn_start_after (List.append_nil _).symm
  · intro piece hpiece kind before behind hbody
    exact locatesIn_of_scan h hpiece hbody

theorem trueIn_of_scan_eq_error {e : UnterminatedTag} (h : scan source = .error e) : e.place.TrueIn source := by
  obtain ⟨bodies, inside, hsource, -, -, hplace⟩ := scanFrom_eq_error_iff.mp h
  rw [hplace]
  rw [List.append_assoc] at hsource
  exact Place.trueIn_start_after hsource.symm

end Piece

/-- Reading a content fails in front of one of its characters or at its end. -/
theorem SyntaxError.ArisesIn.exists_boundary {content : List Char} {e : SyntaxError} (h : e.ArisesIn content) :
    ∃ before behind, content = before ++ behind ∧ e.span.start = String.utf8Len before := by
  cases h with
  | lexical hlex =>
    obtain ⟨tokens, ahead, taken, hrun, -, -⟩ := Token.Run.of_lexFrom_eq_error hlex
    obtain ⟨passed, hcontent, hstart⟩ := hrun.exists_passed
    refine ⟨passed, ahead, hcontent, ?_⟩
    rw [← Token.byteSize_eq_utf8Len, ← Nat.zero_add (Token.byteSize passed)]
    exact hstart
  | @order ts fault t hlex ht hfault =>
    have hrun := Token.Run.of_lexFrom_eq_ok hlex
    rcases List.mem_append.mp ht with htoken | hend
    · obtain ⟨front, back, hcontent, hstart⟩ := hrun.exists_start_of_mem htoken
      refine ⟨front, back, hcontent, ?_⟩
      rw [← Token.byteSize_eq_utf8Len, ← Nat.zero_add (Token.byteSize front)]
      exact hstart
    · obtain ⟨passed, hcontent, hstop⟩ := hrun.exists_passed
      refine ⟨passed, [], hcontent, ?_⟩
      rw [List.mem_singleton.mp hend, ← Token.byteSize_eq_utf8Len, ← Nat.zero_add (Token.byteSize passed)]
      exact hstop

theorem Piece.locatesIn_of_arisesIn {source : String} {scanned : Scanned} (h : scan source = .ok scanned)
    {piece : Piece} (hpiece : piece ∈ scanned.pieces) {kind : TagKind} {content : List Char}
    (hbody : piece.body = .tag kind content) {e : SyntaxError} (he : e.ArisesIn content) :
    LocatesIn source piece.place content e.span.start := by
  obtain ⟨before, behind, hcontent, hstart⟩ := he.exists_boundary
  rw [hcontent] at hbody ⊢
  rw [hstart]
  exact locatesIn_of_scan h hpiece hbody

theorem OpenBlock.exists_piece_of_mem_behind {pieces : List Piece} {block : OpenBlock}
    (h : block ∈ OpenBlock.behind pieces) : ∃ piece ∈ pieces, block.place = piece.place := by
  induction pieces using List.reverseRecOn with
  | nil => cases h
  | append_singleton front piece ih =>
    have hsplit : OpenBlock.behind (front ++ [piece]) = OpenBlock.pass (OpenBlock.behind front) piece :=
      List.foldl_concat ..
    have hearlier (hmem : block ∈ OpenBlock.behind front) : ∃ p ∈ front ++ [piece], block.place = p.place := by
      obtain ⟨p, hp, hplace⟩ := ih hmem
      exact ⟨p, List.mem_append_left _ hp, hplace⟩
    rw [hsplit, OpenBlock.pass] at h
    split at h
    · rcases List.mem_cons.mp h with hnew | hold
      · exact ⟨piece, by simp, by rw [hnew]⟩
      · exact hearlier hold
    · rcases List.mem_cons.mp h with hnew | hold
      · exact ⟨piece, by simp, by rw [hnew]⟩
      · exact hearlier hold
    · exact hearlier (List.mem_of_mem_tail h)
    · exact hearlier (List.mem_of_mem_tail h)
    · exact hearlier h

namespace Template

variable {source : String} {err : TemplateError}

theorem trueIn_of_comesOf {scanned : Scanned} (h : scan source = .ok scanned) {piece : Piece}
    (hpiece : piece ∈ scanned.pieces) {kind : TagKind} {content : List Char} (hbody : piece.body = .tag kind content)
    (herr : err.ComesOf piece.place content) : err.place.TrueIn source := by
  rcases herr with ⟨hplace, -⟩ | ⟨e, he, herr⟩
  · rw [hplace]
    exact (placesTrue_of_scan h).pieces piece hpiece
  · rw [herr]
    exact (locatesIn_of_arisesIn h hpiece hbody he).1

theorem trueIn_of_parse_eq_error (h : parse source = .error err) : err.place.TrueIn source := by
  rcases cases_of_parse_eq_error h with ⟨e, hscan, herr⟩ | ⟨scanned, hscan, hcases⟩
  · rw [herr]
    exact trueIn_of_scan_eq_error hscan
  · rcases hcases with ⟨piece, hpiece, kind, content, hbody, hcomes⟩ | ⟨p, hread, hfinish⟩
    · exact trueIn_of_comesOf hscan hpiece hbody hcomes
    · -- A block is left open; its place is that of its opening tag.
      obtain ⟨-, innermost, hhead, hplace⟩ := Progress.kind_and_place_of_finish hfinish
      rw [Progress.openBlocks_of_start hread] at hhead
      obtain ⟨piece, hpiece, hopened⟩ := OpenBlock.exists_piece_of_mem_behind (List.mem_of_mem_head? hhead)
      rw [hplace, hopened]
      exact (placesTrue_of_scan hscan).pieces piece hpiece

/-- Every place is a true place of the source: where a piece begins, where the source ends, each byte of a content
counted from its tag, and where a source is at fault. -/
theorem places_are_true :
    (∀ source scanned, scan source = .ok scanned → scanned.PlacesTrue source ∧
      ∀ piece ∈ scanned.pieces, ∀ kind content, piece.body = .tag kind content →
        ∀ e : SyntaxError, e.ArisesIn content → LocatesIn source piece.place content e.span.start) ∧
    (∀ source err, parse source = .error err → err.place.TrueIn source) ∧
    ∀ source err f, parse source = .error err → err.fault = .content f →
      ∃ scanned, scan source = .ok scanned ∧ ∃ piece ∈ scanned.pieces, ∃ kind content,
        piece.body = .tag kind content ∧ ∃ e : SyntaxError, e.ArisesIn content ∧ e.fault = f ∧
          err.place = locate piece.place content e.span.start ∧
          err.place.offset = piece.place.offset + 2 + e.span.start := by
  refine ⟨?_, ?_, ?_⟩
  · intro source scanned hscan
    refine ⟨placesTrue_of_scan hscan, ?_⟩
    intro piece hpiece kind content hbody e he
    exact locatesIn_of_arisesIn hscan hpiece hbody he
  · intro source err hparse
    exact trueIn_of_parse_eq_error hparse
  · intro source err f hparse hfault
    obtain ⟨scanned, hscan, piece, hpiece, kind, content, hbody, e, he, herr⟩ :=
      exists_arisesIn_of_parse_eq_error hparse hfault
    have hlocates := locatesIn_of_arisesIn hscan hpiece hbody he
    rw [herr] at hfault ⊢
    exact ⟨scanned, hscan, piece, hpiece, kind, content, hbody, e, he, TemplateFault.content.inj hfault, rfl,
      hlocates.2⟩

/-- A fault on the second line of a tag, with a character of two bytes and a carriage return in front. -/
theorem places_are_true_second_line :
    let source := "é\r\n\x7b\x7b a |\n  9 \x7d\x7d"
    ∃ err, parse source = .error err ∧ err.place = ⟨13, 3, 3⟩ ∧ err.place.TrueIn source := by
  intro source
  have hplace : ((parse source).map fun _ => ()).mapError TemplateError.place = .error ⟨13, 3, 3⟩ := by decide +kernel
  cases hparse : parse source with
  | ok t => simp [hparse, Except.map, Except.mapError] at hplace
  | error err =>
    rw [hparse] at hplace
    exact ⟨err, rfl, Except.error.inj hplace, places_are_true.2.1 source err hparse⟩

end Template

end TextTemplate
