import TextTemplate.Proofs.Source.Layout

namespace TextTemplate

namespace Place

/-- On an earlier line, or further left on the same. -/
def Before (p q : Place) : Prop :=
  p.line < q.line ∨ p.line = q.line ∧ p.column < q.column

variable {p q r : Place}

theorem Before.trans (hpq : p.Before q) (hqr : q.Before r) : p.Before r := by
  unfold Before at hpq hqr ⊢
  omega

theorem Before.line_ne_or_column_ne (h : p.Before q) : p.line ≠ q.line ∨ p.column ≠ q.column := by
  unfold Before at h
  omega

theorem before_step (p : Place) (c : Char) : p.Before (p.step c) := by
  unfold Before step
  split
  · exact .inl (Nat.lt_succ_self p.line)
  · exact .inr ⟨rfl, Nat.lt_succ_self p.column⟩

theorem before_after (p : Place) {cs : List Char} (h : cs ≠ []) : p.Before (p.after cs) := by
  induction cs generalizing p with
  | nil => exact absurd rfl h
  | cons c rest ih =>
    have hstep := before_step p c
    cases rest with
    | nil => exact hstep
    | cons d rest =>
      have hrest := ih (p.step c) (by simp)
      exact hstep.trans hrest

/-- A byte offset of a text leads to a place between two of its characters, or at one of its ends. -/
theorem exists_within_eq (p : Place) (cs : List Char) (offset : Nat) :
    ∃ passed ahead, cs = passed ++ ahead ∧ p.within cs offset = p.after passed := by
  induction cs generalizing p offset with
  | nil => exact ⟨[], [], rfl, rfl⟩
  | cons c rest ih =>
    by_cases h : offset = 0
    · refine ⟨[], c :: rest, rfl, ?_⟩
      rw [within, if_pos h]
      rfl
    · obtain ⟨passed, ahead, hcut, hplace⟩ := ih (p.step c) (offset - c.utf8Size)
      refine ⟨c :: passed, ahead, by rw [hcut]; rfl, ?_⟩
      rw [within, if_neg h, hplace]
      rfl

end Place

namespace Piece

/-- A character of the piece, its delimiters included, stands at this line and column. -/
def Covers (piece : Piece) (line column : Nat) : Prop :=
  ∃ passed ahead, piece.body.written = passed ++ ahead ∧ ahead ≠ [] ∧
    (piece.place.after passed).line = line ∧ (piece.place.after passed).column = column

/-- What the pieces behind a place cover can be reached from there. -/
theorem exists_after_of_covers {p : Place} {bodies : List Body} {piece : Piece} {line column : Nat}
    (hmem : piece ∈ layOut p bodies) (h : piece.Covers line column) :
    ∃ passed, (p.after passed).line = line ∧ (p.after passed).column = column := by
  induction bodies generalizing p with
  | nil => cases hmem
  | cons body rest ih =>
    rw [layOut] at hmem
    cases hmem with
    | head =>
      obtain ⟨passed, ahead, hcut, hne, hline, hcolumn⟩ := h
      exact ⟨passed, hline, hcolumn⟩
    | tail _ hrest =>
      obtain ⟨passed, hplace⟩ := ih hrest
      refine ⟨body.written ++ passed, ?_⟩
      rw [Place.after_append]
      exact hplace

theorem pairwise_not_covers (p : Place) (bodies : List Body) (line column : Nat) :
    (layOut p bodies).Pairwise fun first second =>
      ¬ (first.Covers line column ∧ second.Covers line column) := by
  induction bodies generalizing p with
  | nil => exact .nil
  | cons body rest ih =>
    refine .cons ?_ (ih (p.after body.written))
    intro second hsecond hcovers
    obtain ⟨⟨passed, ahead, hcut, hne, hline, hcolumn⟩, hlater⟩ := hcovers
    obtain ⟨further, hline', hcolumn'⟩ := exists_after_of_covers hsecond hlater
    have hbefore : (p.after passed).Before ((p.after body.written).after further) := by
      have hahead : ahead ++ further ≠ [] := List.append_ne_nil_of_left_ne_nil hne further
      change body.written = passed ++ ahead at hcut
      rw [hcut, ← Place.after_append, List.append_assoc, Place.after_append]
      exact Place.before_after _ hahead
    have hapart := hbefore.line_ne_or_column_ne
    change (p.after passed).line = line at hline
    change (p.after passed).column = column at hcolumn
    omega

/-- A piece that covers a line and column is the only one of its source that does. -/
theorem not_covers_of_covers {p : Place} {bodies : List Body} {front back : List Piece} {piece : Piece}
    {line column : Nat} (hpieces : layOut p bodies = front ++ piece :: back)
    (h : piece.Covers line column) : ∀ other ∈ front ++ back, ¬ other.Covers line column := by
  have hpairwise := pairwise_not_covers p bodies line column
  rw [hpieces, List.pairwise_append, List.pairwise_cons] at hpairwise
  obtain ⟨-, ⟨hback, -⟩, hfront⟩ := hpairwise
  intro other hmem hother
  rcases List.mem_append.mp hmem with hother_front | hother_back
  · exact hfront other hother_front piece List.mem_cons_self ⟨hother, h⟩
  · exact hback other hother_back ⟨h, hother⟩

/-- The content of a tag begins behind its delimiter, on the same line. -/
theorem after_opener (kind : TagKind) (place : Place) :
    place.after kind.opener = ⟨place.offset + 2, place.line, place.column + 2⟩ := by
  cases kind <;> rfl

theorem covers_locate {kind : TagKind} {content : List Char} {place : Place} (stop offset : Nat) :
    Covers ⟨.tag kind content, place, stop⟩ (locate place content offset).line
      (locate place content offset).column := by
  obtain ⟨passed, ahead, hcut, hplace⟩ := Place.exists_within_eq (place.after kind.opener) content offset
  have hlocate : locate place content offset = place.after (kind.opener ++ passed) := by
    rw [locate, ← after_opener kind, hplace, Place.after_append]
  refine ⟨kind.opener ++ passed, ahead ++ kind.closer, ?_, ?_, ?_, ?_⟩
  · change kind.opener ++ content ++ kind.closer = _
    rw [hcut]
    simp only [List.append_assoc]
  · cases kind <;> simp [TagKind.closer]
  · rw [hlocate]
  · rw [hlocate]

theorem covers_place {kind : TagKind} {content : List Char} (place : Place) (stop : Nat) :
    Covers ⟨.tag kind content, place, stop⟩ place.line place.column := by
  refine ⟨[], kind.opener ++ content ++ kind.closer, rfl, ?_, rfl, rfl⟩
  cases kind <;> simp [TagKind.opener]

end Piece

end TextTemplate
