import TextTemplate.Proofs.Outcome
import TextTemplate.Source.Scan

namespace TextTemplate

/-- More pieces in front of those that were scanned. -/
def Scanned.behind (front : List Piece) (s : Scanned) : Scanned :=
  ⟨front ++ s.pieces, s.finish⟩

namespace Piece

open Outcome

def written (bodies : List Body) : List Char :=
  bodies.flatMap Body.written

/-- Bodies as the pieces of a source that begins at `p`. -/
def layOut (p : Place) : List Body → List Piece
  | [] => []
  | body :: rest => ⟨body, p, (p.after body.written).offset⟩ :: layOut (p.after body.written) rest

/-- What follows does not belong to a text in front of it. -/
def OpensOrEnds (cs : List Char) : Prop :=
  cs = [] ∨ (opens? cs).isSome

/-- A text ends right where `next` begins. -/
def Splits (content next : List Char) : Prop :=
  splitText (content ++ next) = (content, next)

/-- The content of a tag reaches up to the first closing delimiter outside quotes. -/
def Closes (kind : TagKind) (content : List Char) : Prop :=
  splitTag kind none (content ++ kind.closer) = .ok (content, [])

/-- Bodies that are cut as they are where `next` follows them. -/
def Stand (next : List Char) : List Body → Prop
  | [] => True
  | .text content :: rest => content ≠ [] ∧ Splits content (written rest ++ next) ∧ Stand next rest
  | .tag kind content :: rest => Closes kind content ∧ Stand next rest

@[simp] theorem written_nil : written [] = [] := rfl

@[simp] theorem written_cons (body : Body) (rest : List Body) :
    written (body :: rest) = body.written ++ written rest := rfl

@[simp] theorem written_append (as bs : List Body) : written (as ++ bs) = written as ++ written bs :=
  List.flatMap_append

theorem layOut_append (p : Place) (as bs : List Body) :
    layOut p (as ++ bs) = layOut p as ++ layOut (p.after (written as)) bs := by
  induction as generalizing p with
  | nil => rfl
  | cons body rest ih =>
    rw [List.cons_append, layOut, layOut, ih, written_cons, Place.after_append]
    rfl

theorem map_body_layOut (p : Place) (bodies : List Body) : (layOut p bodies).map (·.body) = bodies := by
  induction bodies generalizing p with
  | nil => rfl
  | cons body rest ih => rw [layOut, List.map_cons, ih]

theorem exists_of_layOut_eq_append {p : Place} {bodies : List Body} {front back : List Piece}
    (h : layOut p bodies = front ++ back) :
    ∃ as bs, bodies = as ++ bs ∧ front = layOut p as ∧ back = layOut (p.after (written as)) bs := by
  induction front generalizing p bodies with
  | nil => exact ⟨[], bodies, rfl, rfl, h.symm⟩
  | cons piece front ih =>
    cases bodies with
    | nil => cases h
    | cons body rest =>
      rw [layOut, List.cons_append, List.cons.injEq] at h
      obtain ⟨hpiece, hrest⟩ := h
      obtain ⟨as, bs, rfl, hfront, hback⟩ := ih hrest
      refine ⟨body :: as, bs, rfl, ?_, ?_⟩
      · rw [layOut, ← hpiece, hfront]
      · rw [written_cons, Place.after_append, hback]

theorem exists_of_layOut_eq_append_cons {p : Place} {bodies : List Body} {front back : List Piece} {piece : Piece}
    (h : layOut p bodies = front ++ piece :: back) :
    ∃ before behind, bodies = before ++ piece.body :: behind ∧ front = layOut p before ∧
      front ++ [piece] = layOut p (before ++ [piece.body]) := by
  rw [List.append_cons] at h
  obtain ⟨upTo, behind, rfl, hupTo, -⟩ := exists_of_layOut_eq_append h
  obtain ⟨before, last, rfl, hbefore, hlast⟩ := exists_of_layOut_eq_append hupTo.symm
  have hbody : last = [piece.body] := by
    have hmap := congrArg (List.map (·.body)) hlast
    rw [map_body_layOut] at hmap
    exact hmap.symm
  subst hbody
  exact ⟨before, behind, (List.append_cons before piece.body behind).symm, hbefore, hupTo⟩

theorem opens?_opener_append (kind : TagKind) (inside : List Char) :
    opens? (kind.opener ++ inside) = some (kind, inside) := by
  cases kind <;> rfl

theorem scanFrom_tag (p : Place) (kind : TagKind) (inside : List Char) :
    scanFrom p (kind.opener ++ inside) =
      match splitTag kind none inside with
      | .error inQuote => .error ⟨kind, inQuote, p⟩
      | .ok (content, after) =>
        (scanFrom (p.after (Body.tag kind content).written) after).map
          (Scanned.behind (layOut p [.tag kind content])) := by
  have hopens := opens?_opener_append kind inside
  generalize kind.opener ++ inside = cs at hopens
  cases cs with
  | nil => cases hopens
  | cons c rest =>
    rw [scanFrom]
    split
    · rename_i hopen
      rw [hopens] at hopen
      cases hopen
      split
      · rename_i htag
        rw [htag]
      · rename_i htag
        rw [htag]
        rfl
    · rename_i hopen
      rw [hopens] at hopen
      cases hopen

theorem scanFrom_text (p : Place) {cs : List Char} (hne : cs ≠ []) (h : opens? cs = none) :
    scanFrom p cs =
      (scanFrom (p.after (splitText cs).1) (splitText cs).2).map
        (Scanned.behind (layOut p [.text (splitText cs).1])) := by
  cases cs with
  | nil => exact absurd rfl hne
  | cons c rest =>
    rw [scanFrom]
    split
    · rename_i hopen
      rw [h] at hopen
      cases hopen
    · rfl

theorem opensOrEnds_splitText (cs : List Char) : OpensOrEnds (splitText cs).2 := by
  induction cs with
  | nil => exact .inl rfl
  | cons c rest ih =>
    unfold splitText
    split
    · rename_i hopens
      exact .inr hopens
    · exact ih

theorem Splits.opensOrEnds {content next : List Char} (h : Splits content next) : OpensOrEnds next := by
  have hends := opensOrEnds_splitText (content ++ next)
  rw [h] at hends
  exact hends

theorem splits_nil {next : List Char} (h : OpensOrEnds next) : Splits [] next := by
  rcases h with rfl | hopens
  · rfl
  · cases next with
    | nil => rfl
    | cons c rest => rw [Splits, List.nil_append, splitText, if_pos hopens]

theorem splits_cons_iff {c : Char} {content next : List Char} :
    Splits (c :: content) next ↔ opens? (c :: (content ++ next)) = none ∧ Splits content next := by
  rw [Splits, Splits, List.cons_append, splitText]
  cases hopens : opens? (c :: (content ++ next)) with
  | none => simp [Prod.ext_iff]
  | some _ => simp

/-- Whether a tag opens is decided by two characters. -/
theorem opens?_cons_eq_none_iff {c : Char} {cs : List Char} :
    opens? (c :: cs) = none ↔ (c = '\x7b' → cs.head? ≠ some '\x7b' ∧ cs.head? ≠ some '%') := by
  cases cs with
  | nil => simp [opens?]
  | cons d rest =>
    unfold opens?
    split <;> simp_all

/-- A text that ends at one tag ends at any other, and at the end of the source. -/
theorem Splits.congr {content next other : List Char} (h : Splits content next) (hnext : next.head? = some '\x7b')
    (hother : OpensOrEnds other) : Splits content other := by
  induction content with
  | nil => exact splits_nil hother
  | cons c content ih =>
    rw [splits_cons_iff] at h ⊢
    refine ⟨?_, ih h.2⟩
    rw [opens?_cons_eq_none_iff]
    intro hc
    have hclosed := opens?_cons_eq_none_iff.mp h.1 hc
    cases content with
    | nil => exact absurd hnext hclosed.1
    | cons d content => exact hclosed

/-- Where `closer` begins is decided by two characters. -/
theorem isPrefixOf_closer_congr {kind : TagKind} {c : Char} {cs ds : List Char} (h : cs.head? = ds.head?) :
    kind.closer.isPrefixOf (c :: cs) = kind.closer.isPrefixOf (c :: ds) := by
  cases kind <;> cases cs <;> cases ds <;> simp_all [TagKind.closer, List.isPrefixOf]

theorem splitTag_closer (kind : TagKind) (after : List Char) :
    splitTag kind none (kind.closer ++ after) = .ok ([], after) := by
  cases kind <;> simp [splitTag, isQuote, TagKind.closer, List.isPrefixOf]

/-- Where a tag ends does not depend on what follows it. -/
theorem splitTag_append {kind : TagKind} {quote : Option Char} {cs content rest : List Char}
    (h : splitTag kind quote cs = .ok (content, rest)) (after : List Char) :
    splitTag kind quote (content ++ kind.closer ++ after) = .ok (content, after) := by
  induction cs generalizing quote content with
  | nil => cases quote <;> cases h
  | cons c cs ih =>
    have step {q : Option Char}
        (hm : (splitTag kind q cs).map (fun cut => (c :: cut.1, cut.2)) = .ok (content, rest)) :
        ∃ t, content = c :: t ∧ splitTag kind q cs = .ok (t, rest) ∧
          splitTag kind q (t ++ kind.closer ++ after) = .ok (t, after) := by
      obtain ⟨⟨t, r⟩, hs, heq⟩ := map_eq_ok_iff.mp hm
      cases heq
      exact ⟨t, rfl, hs, ih hs⟩
    unfold splitTag at h
    cases quote with
    | some q =>
      obtain ⟨t, rfl, -, ht⟩ := step h
      rw [List.cons_append, List.cons_append, splitTag, ht]
      rfl
    | none =>
      simp only at h
      split at h
      · rename_i hquote
        obtain ⟨t, rfl, -, ht⟩ := step h
        rw [List.cons_append, List.cons_append, splitTag, if_pos hquote, ht]
        rfl
      · rename_i hquote
        split at h
        · cases h
          exact splitTag_closer kind after
        · rename_i hclose
          obtain ⟨t, rfl, hs, ht⟩ := step h
          have hhead : cs.head? = (t ++ kind.closer ++ after).head? := by
            rw [← append_of_splitTag hs]
            cases t <;> cases kind <;> rfl
          rw [isPrefixOf_closer_congr hhead] at hclose
          rw [List.cons_append, List.cons_append, splitTag, if_neg hquote, if_neg hclose, ht]
          rfl

theorem closes_of_splitTag {kind : TagKind} {cs content rest : List Char}
    (h : splitTag kind none cs = .ok (content, rest)) : Closes kind content := by
  have hclosed := splitTag_append h []
  rw [List.append_nil] at hclosed
  exact hclosed

/-- Bodies that stand where they are written are cut from the source as they are. -/
theorem scanFrom_written_append {next : List Char} {bodies : List Body} (h : Stand next bodies) (p : Place) :
    scanFrom p (written bodies ++ next) =
      (scanFrom (p.after (written bodies)) next).map (Scanned.behind (layOut p bodies)) := by
  induction bodies generalizing p with
  | nil =>
    change scanFrom p next = (scanFrom p next).map (Scanned.behind [])
    cases scanFrom p next <;> rfl
  | cons body rest ih =>
    have behind (x : Except UnterminatedTag Scanned) :
        (x.map (Scanned.behind (layOut (p.after body.written) rest))).map
            (Scanned.behind (layOut p [body])) =
          x.map (Scanned.behind (layOut p (body :: rest))) := by
      cases x <;> rfl
    cases body with
    | text content =>
      obtain ⟨hne, hsplits, hrest⟩ := h
      have hclosed : opens? (content ++ (written rest ++ next)) = none := by
        cases content with
        | nil => exact absurd rfl hne
        | cons c content => exact (splits_cons_iff.mp hsplits).1
      rw [written_cons, List.append_assoc, Body.written_text,
        scanFrom_text p (List.append_ne_nil_of_left_ne_nil hne _) hclosed, hsplits, ih hrest, Place.after_append]
      exact behind _
    | tag kind content =>
      obtain ⟨hcloses, hrest⟩ := h
      have htag : splitTag kind none (content ++ kind.closer ++ (written rest ++ next)) =
          .ok (content, written rest ++ next) := splitTag_append hcloses _
      rw [written_cons, List.append_assoc, Place.after_append]
      have hsource : (Body.tag kind content).written ++ (written rest ++ next) =
          kind.opener ++ (content ++ kind.closer ++ (written rest ++ next)) := by simp
      rw [hsource, scanFrom_tag, htag]
      simp only [ih hrest]
      exact behind _

/-- What the scanner cuts stands where it is cut, and begins where the pieces before it end. -/
theorem stand_of_scanFrom {p : Place} {cs : List Char} {s : Scanned} (h : scanFrom p cs = .ok s) :
    ∃ bodies, s.pieces = layOut p bodies ∧ Stand [] bodies ∧ written bodies = cs ∧ s.finish = p.after cs := by
  induction hn : cs.length using Nat.strongRecOn generalizing p cs s with
  | ind n ih =>
  cases cs with
  | nil =>
    rw [scanFrom] at h
    cases h
    exact ⟨[], rfl, trivial, rfl, rfl⟩
  | cons c rest =>
    cases hopens : opens? (c :: rest) with
    | none =>
      rw [scanFrom_text p (by simp) hopens] at h
      obtain ⟨s', hs', rfl⟩ := map_eq_ok_iff.mp h
      have hlt := length_splitText hopens
      obtain ⟨bodies, hpieces, hstand, hwritten, hfinish⟩ := ih _ (by omega) hs' rfl
      refine ⟨.text (splitText (c :: rest)).1 :: bodies, ?_, ⟨?_, ?_, hstand⟩, ?_, ?_⟩
      · rw [Scanned.behind, hpieces]
        rfl
      · simp [splitText, hopens]
      · rw [List.append_nil, hwritten, Splits, splitText_append]
      · rw [written_cons, hwritten, Body.written_text, splitText_append]
      · change s'.finish = _
        rw [hfinish, ← Place.after_append, splitText_append]
    | some opened =>
      obtain ⟨kind, inside⟩ := opened
      have hlen := length_of_opens? hopens
      rw [← append_of_opens? hopens, scanFrom_tag] at h
      cases htag : splitTag kind none inside with
      | error inQuote => simp [htag] at h
      | ok parts =>
        obtain ⟨content, after⟩ := parts
        simp only [htag] at h
        obtain ⟨s', hs', rfl⟩ := map_eq_ok_iff.mp h
        have hle := length_of_splitTag htag
        obtain ⟨bodies, hpieces, hstand, hwritten, hfinish⟩ := ih after.length (by omega) hs' rfl
        have hsource : (Body.tag kind content).written ++ after = c :: rest := by
          rw [← append_of_opens? hopens, ← append_of_splitTag htag]
          simp
        refine ⟨.tag kind content :: bodies, ?_, ⟨closes_of_splitTag htag, hstand⟩, ?_, ?_⟩
        · rw [Scanned.behind, hpieces]
          rfl
        · rw [written_cons, hwritten, hsource]
        · change s'.finish = _
          rw [hfinish, ← Place.after_append, hsource]

/-- The pieces of a source are its bodies laid out from its start, and written they are the source. -/
theorem exists_layOut_of_scan {source : String} {s : Scanned} (h : scan source = .ok s) :
    ∃ bodies, s.pieces = layOut Place.start bodies ∧ Stand [] bodies ∧ Body.source bodies = source := by
  obtain ⟨bodies, hpieces, hstand, hwritten, -⟩ := stand_of_scanFrom h
  refine ⟨bodies, hpieces, hstand, ?_⟩
  rw [Body.source, ← String.ofList_toList (s := source), ← hwritten]
  rfl

theorem scan_source_append {bodies : List Body} {next : String} (h : Stand next.toList bodies) :
    scan (Body.source bodies ++ next) =
      (scanFrom (Place.start.after (written bodies)) next.toList).map
        (Scanned.behind (layOut Place.start bodies)) := by
  rw [scan, Body.source, String.toList_append, String.toList_ofList]
  exact scanFrom_written_append h Place.start

theorem scan_source {bodies : List Body} (h : Stand [] bodies) :
    scan (Body.source bodies) = .ok ⟨layOut Place.start bodies, Place.start.after (written bodies)⟩ := by
  have hscan : scan (Body.source bodies ++ "") = _ := scan_source_append h
  rw [String.append_empty] at hscan
  rw [hscan]
  simp [scanFrom, Except.map, Scanned.behind]

theorem stand_append {as bs : List Body} {next : List Char} :
    Stand next (as ++ bs) ↔ Stand (written bs ++ next) as ∧ Stand next bs := by
  induction as with
  | nil => simp [Stand]
  | cons body rest ih =>
    cases body with
    | text content => simp [Stand, ih, and_assoc]
    | tag kind content => simp [Stand, ih, and_assoc]

theorem head?_written_tag (kind : TagKind) (content : List Char) (rest : List Body) (next : List Char) :
    (written (.tag kind content :: rest) ++ next).head? = some '\x7b' := by
  cases kind <;> rfl

theorem opens_written_tag (kind : TagKind) (content : List Char) (rest : List Body) (next : List Char) :
    OpensOrEnds (written (.tag kind content :: rest) ++ next) := by
  cases kind <;> exact .inr rfl

theorem not_opens_of_stand_text {content next : List Char} {rest : List Body}
    (h : Stand next (.text content :: rest)) :
    ¬ OpensOrEnds (written (.text content :: rest) ++ next) := by
  obtain ⟨hne, hsplits, -⟩ := h
  cases content with
  | nil => exact absurd rfl hne
  | cons c content =>
    have hclosed := (splits_cons_iff.mp hsplits).1
    rintro (hempty | hopens)
    · cases hempty
    · rw [written_cons, List.append_assoc] at hopens
      exact absurd hopens (by rw [Body.written_text, List.cons_append, hclosed]; simp)

/-- In front of a tag a source may end or go on with another tag. -/
theorem stand_of_opens {next other : List Char} {front : List Body} (h : Stand next front)
    (hnext : next.head? = some '\x7b') (hother : OpensOrEnds other) : Stand other front := by
  induction front with
  | nil => trivial
  | cons body rest ih =>
    cases body with
    | tag kind content => exact ⟨h.1, ih h.2⟩
    | text content =>
      obtain ⟨hne, hsplits, hrest⟩ := h
      refine ⟨hne, ?_, ih hrest⟩
      rcases rest with _ | ⟨⟨following⟩ | ⟨kind, inside⟩, rest⟩
      · exact hsplits.congr hnext hother
      · -- A text ends where a tag opens, so no other text follows.
        exact absurd hsplits.opensOrEnds (not_opens_of_stand_text hrest)
      · exact hsplits.congr (head?_written_tag kind inside rest next)
          (opens_written_tag kind inside rest other)

/-- Behind a tag a source may go on in any way. -/
theorem stand_tag_congr {kind : TagKind} {content next other : List Char} {front : List Body}
    (h : Stand next (front ++ [.tag kind content])) : Stand other (front ++ [.tag kind content]) := by
  rw [stand_append] at h ⊢
  refine ⟨stand_of_opens h.1 ?_ ?_, h.2.1, trivial⟩
  · exact head?_written_tag kind content [] next
  · exact opens_written_tag kind content [] other

/-- A blank behind bodies; it belongs to the text that they end with, if they do. -/
def endBlank : List Body → List Body
  | [] => [.text [' ']]
  | [.text content] => [.text (content ++ [' '])]
  | body :: rest => body :: endBlank rest

theorem written_endBlank (bodies : List Body) : written (endBlank bodies) = written bodies ++ [' '] := by
  fun_induction endBlank bodies with
  | case1 => rfl
  | case2 content => simp
  | case3 body rest _ ih => rw [written_cons, written_cons, ih, List.append_assoc]

/-- A tag opens where the two meet, with its first character in the one and its second in the other. -/
def OpensAcross (front back : List Char) : Prop :=
  front.getLast? = some '\x7b' ∧ (back.head? = some '\x7b' ∨ back.head? = some '%')

/-- Two texts become one if no tag opens where they meet. -/
theorem Splits.append {content more next : List Char} (h : Splits content []) (hmore : Splits more next)
    (hne : more ≠ []) (hseam : ¬ OpensAcross content more) : Splits (content ++ more) next := by
  induction content with
  | nil => exact hmore
  | cons c content ih =>
    obtain ⟨hopens, hrest⟩ := splits_cons_iff.mp h
    have hlater : ¬ OpensAcross content more := by
      intro hacross
      refine hseam ⟨?_, hacross.2⟩
      rw [List.getLast?_cons, hacross.1]
      rfl
    rw [List.cons_append, splits_cons_iff]
    refine ⟨?_, ih hrest hlater⟩
    rw [opens?_cons_eq_none_iff]
    intro hc
    have hclosed := opens?_cons_eq_none_iff.mp hopens hc
    cases content with
    | nil =>
      obtain ⟨d, more, rfl⟩ := List.exists_cons_of_ne_nil hne
      exact not_or.mp fun hhead => hseam ⟨by rw [hc]; rfl, hhead⟩
    | cons d content => exact hclosed

/-- A blank does not open a tag, neither with what stands before it nor with what follows. -/
theorem Splits.blank {content next : List Char} (h : Splits content []) (hnext : OpensOrEnds next) :
    Splits (content ++ [' ']) next := by
  have hopens : opens? (' ' :: ([] ++ next)) = none := by
    rw [opens?_cons_eq_none_iff]
    intro hc
    exact absurd hc (by decide)
  have hblank : Splits [' '] next := splits_cons_iff.mpr ⟨hopens, splits_nil hnext⟩
  refine h.append hblank (by simp) ?_
  simp [OpensAcross]

/-- Behind a blank a source may end or go on with a tag. -/
theorem stand_endBlank {bodies : List Body} (h : Stand [] bodies) {next : List Char}
    (hnext : OpensOrEnds next) : Stand next (endBlank bodies) := by
  fun_induction endBlank bodies with
  | case1 => exact ⟨by simp, Splits.blank (splits_nil (.inl rfl)) hnext, trivial⟩
  | case2 content =>
    obtain ⟨hne, hsplits, -⟩ := h
    exact ⟨by simp, hsplits.blank hnext, trivial⟩
  | case3 body rest hlast ih =>
    cases body with
    | tag kind content => exact ⟨h.1, ih h.2⟩
    | text content =>
      obtain ⟨hne, hsplits, hrest⟩ := h
      refine ⟨hne, ?_, ih hrest⟩
      cases rest with
      | nil => exact (hlast content rfl rfl).elim
      | cons following rest =>
        cases following with
        | text _ => exact absurd hsplits.opensOrEnds (not_opens_of_stand_text hrest)
        | tag kind inside =>
          have htag := head?_written_tag kind inside
          have hother := opens_written_tag kind inside
          exact hsplits.congr (htag rest []) (hother (endBlank rest) next)

end Piece

end TextTemplate
