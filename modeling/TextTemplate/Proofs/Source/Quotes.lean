import Mathlib.Data.List.Induction
import Mathlib.Data.List.Infix
import TextTemplate.Proofs.Source.Layout

namespace TextTemplate.Piece

open Outcome

/-- The quote that is open behind a character, where `quote` is the one open in front of it. A quote is closed by
its own kind only. -/
def quoteStep (quote : Option Char) (c : Char) : Option Char :=
  match quote with
  | some q => if c = q then none else some q
  | none => if isQuote c then some c else none

/-- The quote that is open behind a text. -/
def quoteAfter (quote : Option Char) (cs : List Char) : Option Char :=
  cs.foldl quoteStep quote

theorem quoteAfter_append (quote : Option Char) (cs ds : List Char) :
    quoteAfter quote (cs ++ ds) = quoteAfter (quoteAfter quote cs) ds :=
  List.foldl_append

theorem quoteAfter_of_unquoted {cs : List Char} (h : ∀ c ∈ cs, isQuote c = false) : quoteAfter none cs = none := by
  induction cs with
  | nil => rfl
  | cons c rest ih =>
    obtain ⟨hc, hrest⟩ := List.forall_mem_cons.mp h
    have hstep : quoteStep none c = none := by simp [quoteStep, hc]
    change quoteAfter (quoteStep none c) rest = none
    rw [hstep, ih hrest]

theorem quoteAfter_some_of_not_mem {q : Char} {cs : List Char} (h : q ∉ cs) : quoteAfter (some q) cs = some q := by
  induction cs with
  | nil => rfl
  | cons c rest ih =>
    have hc : q ≠ c := List.ne_of_not_mem_cons h
    have hstep : quoteStep (some q) c = some q := if_neg hc.symm
    change quoteAfter (quoteStep (some q) c) rest = some q
    rw [hstep, ih (List.not_mem_of_not_mem_cons h)]

/-- Behind the closing quote the text goes on as if nothing had been quoted. -/
theorem quoteAfter_quoted {q : Char} (hq : isQuote q = true) {text : List Char} (h : q ∉ text) (cs : List Char) :
    quoteAfter none (q :: (text ++ q :: cs)) = quoteAfter none cs := by
  have hopen : quoteStep none q = some q := if_pos hq
  have hclose : quoteStep (some q) q = none := if_pos rfl
  change quoteAfter (quoteStep none q) (text ++ q :: cs) = _
  rw [hopen, quoteAfter_append, quoteAfter_some_of_not_mem h]
  change quoteAfter (quoteStep (some q) q) cs = _
  rw [hclose]

/-- A quote that is open was opened somewhere, and has not been met since. -/
theorem exists_of_quoteAfter_eq_some {q : Char} {cs : List Char} (h : quoteAfter none cs = some q) :
    ∃ front text, cs = front ++ q :: text ∧ isQuote q = true ∧ quoteAfter none front = none ∧ q ∉ text := by
  induction cs using List.reverseRecOn with
  | nil => cases h
  | append_singleton cs c ih =>
    rw [quoteAfter_append] at h
    change quoteStep (quoteAfter none cs) c = some q at h
    cases hbefore : quoteAfter none cs with
    | none =>
      rw [hbefore, quoteStep] at h
      split at h
      · rename_i hquote
        cases h
        exact ⟨cs, [], rfl, hquote, hbefore, List.not_mem_nil⟩
      · cases h
    | some opened =>
      rw [hbefore, quoteStep] at h
      split at h
      · cases h
      · rename_i hc
        cases h
        obtain ⟨front, text, hcs, hq, hfront, htext⟩ := ih hbefore
        refine ⟨front, text ++ [c], by rw [hcs]; simp, hq, hfront, ?_⟩
        simpa [htext] using Ne.symm hc

/-- Behind `front` the text goes on with the closing delimiter, and no quote is open there. -/
structure ClosedBehind (kind : TagKind) (quote : Option Char) (cs front : List Char) : Prop where
  closer : front ++ kind.closer <+: cs
  unquoted : quoteAfter quote front = none

variable {kind : TagKind} {quote : Option Char} {c : Char} {cs content rest front : List Char}

theorem closedBehind_nil_iff : ClosedBehind kind quote cs [] ↔ kind.closer <+: cs ∧ quote = none :=
  ⟨fun h => ⟨h.closer, h.unquoted⟩, fun h => ⟨h.1, h.2⟩⟩

theorem closedBehind_cons_iff {d : Char} : ClosedBehind kind quote (c :: cs) (d :: front) ↔
    d = c ∧ ClosedBehind kind (quoteStep quote c) cs front := by
  constructor
  · rintro ⟨hcloser, hunquoted⟩
    rw [List.cons_append, List.cons_prefix_cons] at hcloser
    obtain ⟨rfl, hcloser⟩ := hcloser
    exact ⟨rfl, hcloser, hunquoted⟩
  · rintro ⟨rfl, hcloser, hunquoted⟩
    exact ⟨List.cons_prefix_cons.mpr ⟨rfl, hcloser⟩, hunquoted⟩

theorem not_closedBehind_empty : ¬ ClosedBehind kind quote [] front := by
  intro h
  have hnil := List.prefix_nil.mp h.closer
  cases kind <;> simp [TagKind.closer] at hnil

theorem not_isQuote_of_closer_prefix (h : kind.closer <+: c :: cs) : isQuote c = false := by
  cases kind <;>
    · obtain ⟨rfl, -⟩ := List.cons_prefix_cons.mp h
      decide

/-- A delimiter outside quotes ends the tag, every other character belongs to it. -/
theorem splitTag_cons : splitTag kind quote (c :: cs) =
    if kind.closer <+: c :: cs ∧ quote = none then .ok ([], cs.drop 1)
    else (splitTag kind (quoteStep quote c) cs).map fun cut => (c :: cut.1, cut.2) := by
  cases quote with
  | some q => simp [splitTag, quoteStep]
  | none =>
    by_cases hclose : kind.closer <+: c :: cs
    · have hquote := not_isQuote_of_closer_prefix hclose
      simp [splitTag, hclose, hquote]
    · cases hquote : isQuote c <;> simp [splitTag, hclose, hquote, quoteStep]

/-- A quoted text belongs to the tag, whatever it holds. -/
theorem splitTag_quoted {q : Char} (hq : isQuote q = true) {text : List Char} (h : q ∉ text) (cs : List Char) :
    splitTag kind none (q :: (text ++ q :: cs)) =
      (splitTag kind none cs).map fun cut => (q :: (text ++ q :: cut.1), cut.2) := by
  have hopen {text : List Char} (h : q ∉ text) : splitTag kind (some q) (text ++ q :: cs) =
      (splitTag kind none cs).map fun cut => (text ++ q :: cut.1, cut.2) := by
    induction text with
    | nil => simp [splitTag_cons, quoteStep]
    | cons c text ih =>
      have hstep : quoteStep (some q) c = some q := if_neg (List.ne_of_not_mem_cons h).symm
      rw [List.cons_append, splitTag_cons, if_neg (by simp), hstep, ih (List.not_mem_of_not_mem_cons h)]
      cases splitTag kind none cs <;> rfl
  have hstep : quoteStep none q = some q := if_pos hq
  have hinside : ¬ (kind.closer <+: q :: (text ++ q :: cs) ∧ (none : Option Char) = none) := by
    intro hclose
    have hunquoted := not_isQuote_of_closer_prefix hclose.1
    rw [hunquoted] at hq
    cases hq
  rw [splitTag_cons, if_neg hinside, hstep, hopen h]
  cases splitTag kind none cs <;> rfl

/-- Behind a part of a content the scan goes on with the quote that this part leaves open. -/
theorem splitTag_behind {more : List Char} (h : splitTag kind quote (front ++ cs) = .ok (front ++ more, rest)) :
    splitTag kind (quoteAfter quote front) cs = .ok (more, rest) := by
  induction front generalizing quote with
  | nil => exact h
  | cons c front ih =>
    rw [List.cons_append, splitTag_cons] at h
    split at h
    · cases h
    · obtain ⟨⟨found, after⟩, hfound, heq⟩ := map_eq_ok_iff.mp h
      cases heq
      exact ih hfound

/-- A tag that ends does so at the first delimiter outside quotes. -/
theorem first_of_splitTag (h : splitTag kind quote cs = .ok (content, rest)) :
    quoteAfter quote content = none ∧
      ∀ front, ClosedBehind kind quote cs front → content.length ≤ front.length := by
  induction cs generalizing quote content with
  | nil => cases quote <;> cases h
  | cons c cs ih =>
    rw [splitTag_cons] at h
    split at h
    · rename_i hclose
      cases h
      exact ⟨hclose.2, fun front _ => Nat.zero_le _⟩
    · rename_i hopen
      obtain ⟨⟨more, after⟩, hmore, heq⟩ := map_eq_ok_iff.mp h
      cases heq
      obtain ⟨hunquoted, hfirst⟩ := ih hmore
      refine ⟨hunquoted, ?_⟩
      intro front hfront
      cases front with
      | nil => exact absurd (closedBehind_nil_iff.mp hfront) hopen
      | cons d front => exact Nat.succ_le_succ (hfirst front (closedBehind_cons_iff.mp hfront).2)

/-- A tag that does not end has no delimiter outside quotes. -/
theorem unclosed_of_splitTag {inQuote : Bool} (h : splitTag kind quote cs = .error inQuote) :
    (∀ front, ¬ ClosedBehind kind quote cs front) ∧ inQuote = (quoteAfter quote cs).isSome := by
  induction cs generalizing quote with
  | nil =>
    cases h
    exact ⟨fun front => not_closedBehind_empty, rfl⟩
  | cons c cs ih =>
    rw [splitTag_cons] at h
    split at h
    · cases h
    · rename_i hopen
      cases hmore : splitTag kind (quoteStep quote c) cs with
      | ok cut => simp [hmore, Except.map] at h
      | error b =>
        rw [hmore] at h
        cases h
        obtain ⟨hnone, hquote⟩ := ih hmore
        refine ⟨?_, hquote⟩
        intro front hfront
        cases front with
        | nil => exact hopen (closedBehind_nil_iff.mp hfront)
        | cons d front => exact hnone front (closedBehind_cons_iff.mp hfront).2

theorem closedBehind_of_splitTag (h : splitTag kind quote cs = .ok (content, rest)) :
    ClosedBehind kind quote cs content :=
  ⟨⟨rest, append_of_splitTag h⟩, (first_of_splitTag h).1⟩

/-- Two places where a tag is closed first are one place. -/
theorem eq_of_closed_first {other : List Char} (hc : ClosedBehind kind quote cs content)
    (hcontent : ∀ front, ClosedBehind kind quote cs front → content.length ≤ front.length)
    (ho : ClosedBehind kind quote cs other)
    (hother : ∀ front, ClosedBehind kind quote cs front → other.length ≤ front.length) : content = other := by
  have hlength : content.length = other.length := Nat.le_antisymm (hcontent other ho) (hother content hc)
  have hprefix : content <+: other :=
    List.prefix_of_prefix_length_le ((List.prefix_append _ _).trans hc.closer)
      ((List.prefix_append _ _).trans ho.closer) hlength.le
  exact hprefix.eq_of_length hlength

theorem splitTag_eq_ok_iff : splitTag kind quote cs = .ok (content, rest) ↔
    content ++ kind.closer ++ rest = cs ∧ quoteAfter quote content = none ∧
      ∀ front, ClosedBehind kind quote cs front → content.length ≤ front.length := by
  constructor
  · intro h
    exact ⟨append_of_splitTag h, first_of_splitTag h⟩
  · rintro ⟨hcs, hunquoted, hfirst⟩
    have hclosed : ClosedBehind kind quote cs content := ⟨⟨rest, hcs⟩, hunquoted⟩
    cases hsplit : splitTag kind quote cs with
    | error inQuote => exact absurd hclosed ((unclosed_of_splitTag hsplit).1 content)
    | ok cut =>
      obtain ⟨found, after⟩ := cut
      obtain rfl : content = found :=
        eq_of_closed_first hclosed hfirst (closedBehind_of_splitTag hsplit) (first_of_splitTag hsplit).2
      have hrest := (append_of_splitTag hsplit).trans hcs.symm
      rw [List.append_cancel_left hrest]

theorem splitTag_eq_error_iff {inQuote : Bool} : splitTag kind quote cs = .error inQuote ↔
    (∀ front, ¬ ClosedBehind kind quote cs front) ∧ inQuote = (quoteAfter quote cs).isSome := by
  constructor
  · exact unclosed_of_splitTag
  · rintro ⟨hnone, rfl⟩
    cases hsplit : splitTag kind quote cs with
    | error b => rw [(unclosed_of_splitTag hsplit).2]
    | ok cut => exact absurd (closedBehind_of_splitTag hsplit) (hnone cut.1)

/-- A content stands in its tag exactly if the delimiter behind it is the first one outside quotes. -/
theorem closes_iff : Closes kind content ↔ quoteAfter none content = none ∧
    ∀ front, ClosedBehind kind none (content ++ kind.closer) front → content.length ≤ front.length := by
  rw [Closes, splitTag_eq_ok_iff, List.append_nil]
  exact ⟨fun h => h.2, fun h => ⟨rfl, h⟩⟩

/-- A content without quotes and braces ends where its tag does. -/
theorem closes_of_plain (hquote : ∀ c ∈ content, isQuote c = false)
    (hbrace : '\x7d' ∉ content) : Closes .output content := by
  refine closes_iff.mpr ⟨quoteAfter_of_unquoted hquote, ?_⟩
  rintro front ⟨hcloser, -⟩
  by_contra hshort
  have hlength : (front ++ ['\x7d']).length ≤ content.length := by
    rw [List.length_append, List.length_singleton]
    omega
  have hwhole : front ++ ['\x7d'] ++ ['\x7d'] <+: content ++ ['\x7d', '\x7d'] := by
    rw [List.append_assoc]
    exact hcloser
  have hbegins : front ++ ['\x7d'] <+: content :=
    List.prefix_of_prefix_length_le ((List.prefix_append _ _).trans hwhole) (List.prefix_append content _) hlength
  exact hbrace (hbegins.subset (List.mem_append_right front List.mem_cons_self))

end TextTemplate.Piece
