import TextTemplate.Source.Piece

namespace TextTemplate

/-- The pieces of a source and the place of its end. -/
structure Scanned where
  pieces : List Piece
  finish : Place
deriving DecidableEq, Repr

namespace Piece

/-- The kind of tag that begins here, and what follows the delimiter. -/
def opens? : List Char → Option (TagKind × List Char)
  | '\x7b' :: '\x7b' :: rest => some (.output, rest)
  | '\x7b' :: '%' :: rest => some (.statement, rest)
  | _ => none

def isQuote (c : Char) : Bool :=
  c == '\x22' || c == '\x27'

/-- The content of a tag and what follows its closing delimiter. `quote` is the quote that is open; if the
text ends first, the answer is whether one is. -/
def splitTag (kind : TagKind) (quote : Option Char) : List Char → Except Bool (List Char × List Char)
  | [] => .error quote.isSome
  | c :: rest =>
    match quote with
    | some q =>
      (splitTag kind (if c = q then none else some q) rest).map fun (t, r) => (c :: t, r)
    | none =>
      if isQuote c then (splitTag kind (some c) rest).map fun (t, r) => (c :: t, r)
      else if kind.closer.isPrefixOf (c :: rest) then .ok ([], rest.drop 1)
      else (splitTag kind none rest).map fun (t, r) => (c :: t, r)

/-- The text up to the next opening delimiter or the end. -/
def splitText : List Char → List Char × List Char
  | [] => ([], [])
  | c :: rest =>
    if (opens? (c :: rest)).isSome then ([], c :: rest)
    else
      let (t, r) := splitText rest
      (c :: t, r)

theorem append_of_opens? {cs rest : List Char} {kind : TagKind} (h : opens? cs = some (kind, rest)) :
    kind.opener ++ rest = cs := by
  unfold opens? at h
  split at h
  · simp only [Option.some.injEq, Prod.mk.injEq] at h
    rw [← h.1, ← h.2]
    rfl
  · simp only [Option.some.injEq, Prod.mk.injEq] at h
    rw [← h.1, ← h.2]
    rfl
  · simp at h

/-- A tag is cut where its closing delimiter stands. -/
theorem append_of_splitTag {kind : TagKind} {quote : Option Char} {cs content rest : List Char}
    (h : splitTag kind quote cs = .ok (content, rest)) : content ++ kind.closer ++ rest = cs := by
  induction cs generalizing quote content with
  | nil => simp [splitTag] at h
  | cons c cs ih =>
    have step {q : Option Char}
        (hm : (splitTag kind q cs).map (fun (t, r) => (c :: t, r)) = .ok (content, rest)) :
        content ++ kind.closer ++ rest = c :: cs := by
      cases hs : splitTag kind q cs with
      | error e => simp [hs, Except.map] at hm
      | ok p =>
        obtain ⟨t, r⟩ := p
        simp only [hs, Except.map, Except.ok.injEq, Prod.mk.injEq] at hm
        obtain ⟨rfl, rfl⟩ := hm
        simpa using ih hs
    unfold splitTag at h
    cases quote with
    | some q => exact step h
    | none =>
      simp only at h
      split at h
      · exact step h
      · split at h
        · rename_i hclose
          simp only [Except.ok.injEq, Prod.mk.injEq] at h
          obtain ⟨rfl, rfl⟩ := h
          obtain ⟨after, hafter⟩ := List.isPrefixOf_iff_prefix.1 hclose
          cases kind
          · simp only [TagKind.closer, List.cons_append, List.nil_append, List.cons.injEq] at hafter ⊢
            obtain ⟨rfl, rfl⟩ := hafter
            exact ⟨rfl, rfl⟩
          · simp only [TagKind.closer, List.cons_append, List.nil_append, List.cons.injEq] at hafter ⊢
            obtain ⟨rfl, rfl⟩ := hafter
            exact ⟨rfl, rfl⟩
        · exact step h

theorem length_of_opens? {cs rest : List Char} {kind : TagKind} (h : opens? cs = some (kind, rest)) :
    cs.length = rest.length + 2 := by
  unfold opens? at h
  split at h <;> simp_all

theorem length_of_splitTag {kind : TagKind} {quote : Option Char} {cs content rest : List Char}
    (h : splitTag kind quote cs = .ok (content, rest)) : rest.length ≤ cs.length := by
  induction cs generalizing quote content with
  | nil => simp [splitTag] at h
  | cons c cs ih =>
    have step {q : Option Char}
        (hm : (splitTag kind q cs).map (fun (t, r) => (c :: t, r)) = .ok (content, rest)) :
        rest.length ≤ (c :: cs).length := by
      cases hs : splitTag kind q cs with
      | error e => simp [hs, Except.map] at hm
      | ok p =>
        obtain ⟨t, r⟩ := p
        simp only [hs, Except.map, Except.ok.injEq, Prod.mk.injEq] at hm
        obtain ⟨-, rfl⟩ := hm
        have := ih hs
        simp only [List.length_cons]
        omega
    unfold splitTag at h
    cases quote with
    | some q => exact step h
    | none =>
      simp only at h
      split at h
      · exact step h
      · split at h
        · simp only [Except.ok.injEq, Prod.mk.injEq] at h
          rw [← h.2]
          simp only [List.length_drop, List.length_cons]
          omega
        · exact step h

theorem splitText_append (cs : List Char) : (splitText cs).1 ++ (splitText cs).2 = cs := by
  induction cs with
  | nil => rfl
  | cons c rest ih =>
    unfold splitText
    split
    · rfl
    · simpa using ih

theorem length_splitText {c : Char} {cs : List Char} (h : opens? (c :: cs) = none) :
    (splitText (c :: cs)).2.length < (c :: cs).length := by
  have happ := congrArg List.length (splitText_append cs)
  simp only [List.length_append] at happ
  simp only [splitText, h, Option.isSome_none, Bool.false_eq_true, if_false, List.length_cons]
  omega

set_option linter.unusedVariables false in
def scanFrom (p : Place) (cs : List Char) : Except UnterminatedTag Scanned :=
  match cs with
  | [] => .ok ⟨[], p⟩
  | c :: rest =>
    match hopen : opens? (c :: rest) with
    | some (kind, inside) =>
      match htag : splitTag kind none inside with
      | .error inQuote => .error ⟨kind, inQuote, p⟩
      | .ok (content, after) =>
        let body : Body := .tag kind content
        let next := p.after body.written
        (scanFrom next after).map fun s => ⟨⟨body, p, next.offset⟩ :: s.pieces, s.finish⟩
    | none =>
      let split := splitText (c :: rest)
      let next := p.after split.1
      (scanFrom next split.2).map fun s => ⟨⟨.text split.1, p, next.offset⟩ :: s.pieces, s.finish⟩
termination_by cs.length
decreasing_by
  · have h1 := length_of_opens? hopen
    have h2 := length_of_splitTag htag
    simp only [List.length_cons] at h1 ⊢
    omega
  · exact length_splitText hopen

def scan (source : String) : Except UnterminatedTag Scanned :=
  scanFrom Place.start source.toList

end Piece

end TextTemplate
