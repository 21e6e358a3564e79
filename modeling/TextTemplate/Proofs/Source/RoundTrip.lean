import Mathlib.Data.List.Chain
import TextTemplate.Proofs.Source.Position
import TextTemplate.Proofs.Source.Quotes

namespace TextTemplate

open Outcome

namespace Piece

/-- A text holds something and no opening delimiter; a tag ends at its first closing delimiter outside quotes. -/
def Body.Clean : Body → Prop
  | .text content => content ≠ [] ∧ ∀ kind : TagKind, ¬ kind.opener <:+: content
  | .tag kind content => quoteAfter none content = none ∧
      ∀ front, ClosedBehind kind none (content ++ kind.closer) front → content.length ≤ front.length

/-- No text follows a text, and a brace at the end of a text would join the tag behind it. -/
def Body.MayPrecede : Body → Body → Prop
  | .text _, .text _ => False
  | .text content, .tag _ _ => content.getLast? ≠ some '\x7b'
  | .tag _ _, _ => True

/-- Bodies that keep apart when they are written one after the other. -/
structure Separated (bodies : List Body) : Prop where
  clean : ∀ body ∈ bodies, body.Clean
  mayPrecede : bodies.IsChain Body.MayPrecede

/-- A scan of `source` gets past `bodies` to a tag that opens behind them, and `inside` follows its delimiter. -/
structure Reaches (source : String) (bodies : List Body) (kind : TagKind) (inside : List Char) : Prop where
  source_eq : source.toList = written bodies ++ kind.opener ++ inside
  clean : ∀ body ∈ bodies, body.Clean
  mayPrecede : (bodies ++ [Body.tag kind inside]).IsChain Body.MayPrecede

theorem opener_prefix_iff {c : Char} {cs : List Char} : (∃ kind : TagKind, kind.opener <+: c :: cs) ↔
    c = '\x7b' ∧ (cs.head? = some '\x7b' ∨ cs.head? = some '%') := by
  constructor
  · rintro ⟨kind, hkind⟩
    cases kind <;>
      · obtain ⟨rfl, htail⟩ := List.cons_prefix_cons.mp hkind
        obtain ⟨rest, rfl⟩ := htail
        simp
  · rintro ⟨rfl, hhead⟩
    cases cs with
    | nil => simp at hhead
    | cons d rest =>
      rcases hhead with hbrace | hpercent
      · cases hbrace
        exact ⟨.output, rest, rfl⟩
      · cases hpercent
        exact ⟨.statement, rest, rfl⟩

/-- A text ends right in front of `next`: that is the end or a tag, and no tag opens across the border. -/
def Body.EndsBefore (next : List Char) : Body → Prop
  | .text content => OpensOrEnds next ∧
      (content.getLast? = some '\x7b' → next.head? ≠ some '\x7b' ∧ next.head? ≠ some '%')
  | .tag _ _ => True

theorem splits_iff {content next : List Char} : Splits content next ↔
    (∀ kind : TagKind, ¬ kind.opener <:+: content) ∧ (Body.text content).EndsBefore next := by
  induction content with
  | nil =>
    have hnone : ∀ kind : TagKind, ¬ kind.opener <:+: [] := by
      intro kind h
      cases kind <;> simp [TagKind.opener] at h
    exact ⟨fun h => ⟨hnone, h.opensOrEnds, by simp⟩, fun h => splits_nil h.2.1⟩
  | cons c content ih =>
    have hinfix : (∀ kind : TagKind, ¬ kind.opener <:+: c :: content) ↔
        (¬ ∃ kind : TagKind, kind.opener <+: c :: content) ∧
          ∀ kind : TagKind, ¬ kind.opener <:+: content := by
      simp only [List.infix_cons_iff, not_or, not_exists, forall_and]
    rw [splits_cons_iff, ih, hinfix, opener_prefix_iff, opens?_cons_eq_none_iff]
    -- The border of the text is behind `c` only if nothing follows `c` in it.
    cases content with
    | nil =>
      simp only [Body.EndsBefore, List.nil_append, List.head?_nil, List.getLast?_nil, List.getLast?_singleton,
        Option.some.injEq, reduceCtorEq, or_self, and_false, not_false_iff, true_and, false_implies, and_true]
      exact ⟨fun ⟨hc, hnone, hnext⟩ => ⟨hnone, hnext, hc⟩, fun ⟨hnone, hnext, hc⟩ => ⟨hc, hnone, hnext⟩⟩
    | cons d content => simp [Body.EndsBefore, and_assoc]

theorem stand_cons_iff {next : List Char} {body : Body} {rest : List Body} : Stand next (body :: rest) ↔
    body.Clean ∧ body.EndsBefore (written rest ++ next) ∧ Stand next rest := by
  cases body with
  | text content => rw [Stand, splits_iff, Body.Clean, and_assoc, and_assoc]
  | tag kind content => rw [Stand, closes_iff, Body.Clean, Body.EndsBefore, true_and]

theorem endsBefore_iff_mayPrecede {next : List Char} {body following : Body} {rest : List Body}
    (h : Stand next (following :: rest)) :
    body.EndsBefore (written (following :: rest) ++ next) ↔ body.MayPrecede following := by
  cases body with
  | tag kind content => exact Iff.rfl
  | text content =>
    cases following with
    | text more => exact ⟨fun hends => not_opens_of_stand_text h hends.1, False.elim⟩
    | tag kind inside =>
      have hhead := head?_written_tag kind inside rest next
      constructor
      · intro hends hlast
        exact (hends.2 hlast).1 hhead
      · intro hlast
        exact ⟨opens_written_tag kind inside rest next, fun hbrace => absurd hbrace hlast⟩

theorem stand_iff {next : List Char} {bodies : List Body} : Stand next bodies ↔
    (∀ body ∈ bodies, body.Clean) ∧ bodies.IsChain Body.MayPrecede ∧
      ∀ last ∈ bodies.getLast?, last.EndsBefore next := by
  induction bodies with
  | nil => simp [Stand]
  | cons body rest ih =>
    rw [stand_cons_iff, List.forall_mem_cons]
    cases rest with
    | nil => simp [Stand]
    | cons following rest =>
      rw [List.isChain_cons_cons, List.getLast?_cons_cons]
      constructor
      · rintro ⟨hclean, hends, hrest⟩
        have hmay := (endsBefore_iff_mayPrecede hrest).mp hends
        obtain ⟨hcleans, hchain, hlast⟩ := ih.mp hrest
        exact ⟨⟨hclean, hcleans⟩, ⟨hmay, hchain⟩, hlast⟩
      · rintro ⟨⟨hclean, hcleans⟩, ⟨hmay, hchain⟩, hlast⟩
        have hrest := ih.mpr ⟨hcleans, hchain, hlast⟩
        exact ⟨hclean, (endsBefore_iff_mayPrecede hrest).mpr hmay, hrest⟩

/-- Bodies keep apart exactly if each of them is cut from the source that they make up. -/
theorem stand_nil_iff_separated {bodies : List Body} : Stand [] bodies ↔ Separated bodies := by
  rw [stand_iff]
  constructor
  · rintro ⟨hclean, hchain, -⟩
    exact ⟨hclean, hchain⟩
  · rintro ⟨hclean, hchain⟩
    refine ⟨hclean, hchain, ?_⟩
    intro last _
    cases last with
    | text content => exact ⟨.inl rfl, fun _ => by simp⟩
    | tag kind content => trivial

theorem stand_opener_iff {kind : TagKind} {inside : List Char} {bodies : List Body} :
    Stand (kind.opener ++ inside) bodies ↔
      (∀ body ∈ bodies, body.Clean) ∧ (bodies ++ [Body.tag kind inside]).IsChain Body.MayPrecede := by
  have hhead : (kind.opener ++ inside).head? = some '\x7b' := by cases kind <;> rfl
  have hends (last : Body) : last.EndsBefore (kind.opener ++ inside) ↔ last.MayPrecede (.tag kind inside) := by
    cases last with
    | tag kind content => exact Iff.rfl
    | text content =>
      constructor
      · intro h hlast
        exact (h.2 hlast).1 hhead
      · intro h
        exact ⟨.inr (by rw [opens?_opener_append]; rfl), fun hbrace => absurd hbrace h⟩
  rw [stand_iff, List.isChain_append]
  simp [hends]

/-- From `p` on, `cs` is cut into bodies up to a tag whose content ends before it is closed. -/
def Refuses (p : Place) (cs : List Char) (e : UnterminatedTag) : Prop :=
  ∃ bodies inside, written bodies ++ e.kind.opener ++ inside = cs ∧ Stand (e.kind.opener ++ inside) bodies ∧
    splitTag e.kind none inside = .error e.inQuote ∧ e.place = p.after (written bodies)

/-- What is refused behind a body is refused from where that body begins. -/
theorem Refuses.behind {p : Place} {body : Body} {after : List Char} {e : UnterminatedTag} (hclean : body.Clean)
    (hends : body.EndsBefore after) (h : Refuses (p.after body.written) after e) :
    Refuses p (body.written ++ after) e := by
  obtain ⟨bodies, inside, rfl, hstand, hinside, hplace⟩ := h
  refine ⟨body :: bodies, inside, ?_, stand_cons_iff.mpr ⟨hclean, ?_, hstand⟩, hinside, ?_⟩
  · simp only [written_cons, List.append_assoc]
  · rw [← List.append_assoc]
    exact hends
  · rw [hplace, written_cons, Place.after_append]

/-- A scan fails exactly at a tag that it reaches and whose content it cannot close. -/
theorem scanFrom_eq_error_iff {p : Place} {cs : List Char} {e : UnterminatedTag} :
    scanFrom p cs = .error e ↔ Refuses p cs e := by
  constructor
  · intro h
    induction hn : cs.length using Nat.strongRecOn generalizing p cs with
    | ind n ih =>
    cases cs with
    | nil =>
      rw [scanFrom] at h
      cases h
    | cons c rest =>
      cases hopens : opens? (c :: rest) with
      | none =>
        rw [scanFrom_text p (by simp) hopens] at h
        have hlt := length_splitText hopens
        have hcut := splitText_append (c :: rest)
        have hne : (splitText (c :: rest)).1 ≠ [] := by simp [splitText, hopens]
        have hsplits : Splits (splitText (c :: rest)).1 (splitText (c :: rest)).2 := by rw [Splits, hcut]
        obtain ⟨hnone, hends⟩ := splits_iff.mp hsplits
        have hrest := ih _ (by omega) (map_eq_error_iff.mp h) rfl
        have hclean : (Body.text (splitText (c :: rest)).1).Clean := ⟨hne, hnone⟩
        exact hcut ▸ hrest.behind hclean hends
      | some opened =>
        obtain ⟨kind, inside⟩ := opened
        have hlength := length_of_opens? hopens
        have hsource := append_of_opens? hopens
        rw [← hsource, scanFrom_tag] at h
        cases htag : splitTag kind none inside with
        | error inQuote =>
          rw [htag] at h
          cases h
          exact ⟨[], inside, hsource, trivial, htag, rfl⟩
        | ok parts =>
          obtain ⟨content, after⟩ := parts
          simp only [htag] at h
          have hle := length_of_splitTag htag
          have hbody : (Body.tag kind content).written ++ after = c :: rest := by
            rw [← hsource, ← append_of_splitTag htag]
            simp only [Body.written_tag, List.append_assoc]
          have hrest := ih _ (by omega) (map_eq_error_iff.mp h) rfl
          exact hbody ▸ hrest.behind (closes_iff.mp (closes_of_splitTag htag)) trivial
  · rintro ⟨bodies, inside, rfl, hstand, hinside, hplace⟩
    rw [List.append_assoc, scanFrom_written_append hstand, scanFrom_tag, hinside]
    obtain ⟨kind, inQuote, place⟩ := e
    cases hplace
    rfl

theorem exists_of_mem_layOut {p : Place} {bodies : List Body} {piece : Piece} (h : piece ∈ layOut p bodies) :
    ∃ before behind, bodies = before ++ piece.body :: behind ∧ piece.place = p.after (written before) ∧
      piece.stop = (p.after (written before ++ piece.body.written)).offset := by
  induction bodies generalizing p with
  | nil => cases h
  | cons body rest ih =>
    rw [layOut] at h
    cases h with
    | head => exact ⟨[], rest, rfl, rfl, rfl⟩
    | tail _ hrest =>
      obtain ⟨before, behind, rfl, hplace, hstop⟩ := ih hrest
      refine ⟨body :: before, behind, rfl, ?_, ?_⟩
      · rw [hplace, written_cons, Place.after_append]
      · rw [hstop, written_cons, List.append_assoc, ← Place.after_append]

/-- Each piece begins where the one in front of it ends. -/
theorem contiguous_layOut (p : Place) (bodies : List Body) :
    p.offset :: (layOut p bodies).map (·.stop) =
      (layOut p bodies).map (·.place.offset) ++ [(p.after (written bodies)).offset] := by
  induction bodies generalizing p with
  | nil => rfl
  | cons body rest ih =>
    rw [layOut, List.map_cons, ih, List.map_cons, List.cons_append, written_cons, Place.after_append]

end Piece

/-- The pieces cover the source from its first byte to its last without gap or overlap, the bytes of each piece
write its body, and those of a tag without two at either end write its content. -/
structure Scanned.Tiles (s : Scanned) (source : String) : Prop where
  contiguous : 0 :: s.pieces.map (·.stop) = s.pieces.map (·.place.offset) ++ [s.finish.offset]
  finish_eq : s.finish.offset = source.utf8ByteSize
  boundaries : ∀ piece ∈ s.pieces, String.Pos.Raw.Valid source ⟨piece.place.offset⟩ ∧
    String.Pos.Raw.Valid source ⟨piece.stop⟩
  body_eq : ∀ piece ∈ s.pieces,
    String.Pos.Raw.extract source ⟨piece.place.offset⟩ ⟨piece.stop⟩ = String.ofList piece.body.written
  content_eq : ∀ piece ∈ s.pieces, ∀ kind content, piece.body = .tag kind content →
    String.Pos.Raw.extract source ⟨piece.place.offset + 2⟩ ⟨piece.stop - 2⟩ = String.ofList content

namespace Piece

theorem utf8Len_opener (kind : TagKind) : String.utf8Len kind.opener = 2 := by
  cases kind <;> decide

theorem utf8Len_closer (kind : TagKind) : String.utf8Len kind.closer = 2 := by
  cases kind <;> decide

theorem tiles_of_scan {source : String} {s : Scanned} (h : scan source = .ok s) : s.Tiles source := by
  obtain ⟨bodies, hpieces, -, hwritten, hfinish⟩ := stand_of_scanFrom h
  have hplace {piece : Piece} (hpiece : piece ∈ s.pieces) : ∃ front back,
      source = String.ofList (front ++ piece.body.written ++ back) ∧
      piece.place.offset = String.utf8Len front ∧
      piece.stop = String.utf8Len front + String.utf8Len piece.body.written := by
    rw [hpieces] at hpiece
    obtain ⟨before, behind, hbodies, hbegin, hstop⟩ := exists_of_mem_layOut hpiece
    refine ⟨written before, written behind, ?_, ?_, ?_⟩
    · rw [← String.ofList_toList (s := source), ← hwritten, hbodies]
      simp
    · rw [hbegin, Place.offset_start_after]
    · rw [hstop, Place.offset_start_after, String.utf8Len_append]
  refine ⟨?_, ?_, ?_, ?_, ?_⟩
  · rw [hpieces, hfinish, ← hwritten]
    exact contiguous_layOut Place.start bodies
  · rw [hfinish, Place.offset_start_after, String.utf8Len_toList]
  · intro piece hpiece
    obtain ⟨front, back, rfl, hbegin, hstop⟩ := hplace hpiece
    refine ⟨?_, .mk _ _ ?_⟩
    · rw [List.append_assoc]
      exact .mk _ _ hbegin
    · rw [String.utf8Len_append]
      exact hstop
  · intro piece hpiece
    obtain ⟨front, back, rfl, hbegin, hstop⟩ := hplace hpiece
    rw [hbegin, hstop]
    exact String.extract_of_valid _ _ _
  · intro piece hpiece kind content hbody
    obtain ⟨front, back, rfl, hbegin, hstop⟩ := hplace hpiece
    have hsource : front ++ piece.body.written ++ back =
        (front ++ kind.opener) ++ content ++ (kind.closer ++ back) := by
      rw [hbody]
      simp
    have hstart : piece.place.offset + 2 = String.utf8Len (front ++ kind.opener) := by
      rw [hbegin, String.utf8Len_append, utf8Len_opener]
    have hend : piece.stop - 2 = String.utf8Len (front ++ kind.opener) + String.utf8Len content := by
      rw [hstop, hbody, Body.written_tag, String.utf8Len_append, String.utf8Len_append, String.utf8Len_append,
        utf8Len_opener, utf8Len_closer]
      omega
    rw [hsource, hstart, hend]
    exact String.extract_of_valid _ _ _

theorem reaches_iff {source : String} {bodies : List Body} {kind : TagKind} {inside : List Char} :
    Reaches source bodies kind inside ↔
      written bodies ++ kind.opener ++ inside = source.toList ∧ Stand (kind.opener ++ inside) bodies := by
  rw [stand_opener_iff]
  exact ⟨fun h => ⟨h.source_eq.symm, h.clean, h.mayPrecede⟩, fun h => ⟨h.1.symm, h.2.1, h.2.2⟩⟩

/-- The pieces of a source tile it, keep apart and write it back, bodies that keep apart are scanned as they are, and
a source is refused exactly for a tag that is not closed, at its place. -/
theorem scan_and_source_are_inverse :
    (∀ source s, scan source = .ok s → s.Tiles source ∧ Separated (s.pieces.map (·.body)) ∧
      Body.source (s.pieces.map (·.body)) = source) ∧
    (∀ bodies, Separated bodies → ∃ s, scan (Body.source bodies) = .ok s ∧ s.pieces.map (·.body) = bodies) ∧
    ∀ source e, scan source = .error e ↔ ∃ bodies inside, Reaches source bodies e.kind inside ∧
      (∀ front, ¬ ClosedBehind e.kind none inside front) ∧ e.inQuote = (quoteAfter none inside).isSome ∧
      e.place.offset = String.utf8Len (written bodies) ∧ e.place.line = 1 + (written bodies).count '\n' ∧
      e.place.column = 1 + ((written bodies).reverse.takeWhile (· ≠ '\n')).length := by
  refine ⟨?_, ?_, ?_⟩
  · intro source s h
    obtain ⟨bodies, hpieces, hstand, hsource⟩ := exists_layOut_of_scan h
    have hbodies : s.pieces.map (·.body) = bodies := by rw [hpieces, map_body_layOut]
    rw [hbodies]
    exact ⟨tiles_of_scan h, stand_nil_iff_separated.mp hstand, hsource⟩
  · intro bodies h
    exact ⟨_, scan_source (stand_nil_iff_separated.mpr h), map_body_layOut _ _⟩
  · intro source e
    rw [scan, scanFrom_eq_error_iff, Refuses]
    simp only [reaches_iff, splitTag_eq_error_iff, Place.ext_iff, Place.offset_start_after,
      Place.line_start_after, Place.column_start_after, and_assoc]

/-- Of three braces the first two open the tag, and the first two of three close it. -/
example : (scan "\x7b\x7b\x7b a \x7d\x7d\x7d").toOption.map (·.pieces.map (·.body)) =
    some [.tag .output ['\x7b', ' ', 'a', ' '], .text ['\x7d']] := by decide +kernel

end Piece

end TextTemplate
