import Mathlib.Data.List.TakeWhile
import Mathlib.Data.String.Basic
import TextTemplate.Expr.Lexer
import TextTemplate.Proofs.Outcome
import TextTemplate.Source.Scan

namespace TextTemplate.Token

open Outcome
open Piece (isQuote)

theorem byteSize_eq_utf8Len (cs : List Char) : byteSize cs = String.utf8Len cs := by
  induction cs with
  | nil => rfl
  | cons c rest ih => rw [byteSize, String.utf8Len_cons, ih, Nat.add_comm]

theorem byteSize_append (cs ds : List Char) : byteSize (cs ++ ds) = byteSize cs + byteSize ds := by
  simp only [byteSize_eq_utf8Len, String.utf8Len_append]

theorem byteSize_pos {cs : List Char} (h : cs ≠ []) : 0 < byteSize cs := by
  cases cs with
  | nil => exact absurd rfl h
  | cons c rest =>
    have hc := c.utf8Size_pos
    rw [byteSize]
    omega

def Cut.taken : Cut → List Char
  | lexeme _ taken => taken
  | fault _ taken => taken

/-- What is cut where no string begins: characters from the front, and no quote among them. -/
structure Cut.Plain (cut : Cut) (cs : List Char) : Prop where
  front : cut.taken <+: cs
  unquoted : ∀ c ∈ cut.taken, isQuote c = false
  noString : ∀ text taken, cut ≠ .lexeme (.string text) taken
  noOpenString : ∀ taken, cut ≠ .fault .unterminatedString taken

theorem isQuote_eq_false_of {p : Char → Bool} {c : Char} (h : p c = true) (hdouble : p '\x22' = false)
    (hsingle : p '\x27' = false) : isQuote c = false := by
  have hne {q : Char} (hq : p q = false) : c ≠ q := by
    intro hc
    rw [← hc, h] at hq
    cases hq
  simp [isQuote, hne hdouble, hne hsingle]

theorem plain_cutNumber (cs : List Char) : (cutNumber cs).Plain cs := by
  have hdigits (ds : List Char) : ∀ c ∈ ds.takeWhile (fun c => c.isDigit || c == '.'), isQuote c = false := by
    intro c hc
    have hdigit : (c.isDigit || c == '.') = true := by simpa using List.mem_takeWhile_imp hc
    exact isQuote_eq_false_of (p := fun c => c.isDigit || c == '.') hdigit rfl rfl
  have hplain {body : List Char} (hfront : body <+: cs) (hbody : ∀ c ∈ body, isQuote c = false) :
      (∀ n, (Cut.lexeme (.number n) body).Plain cs) ∧
        (Cut.fault (.invalidNumber (String.ofList body)) body).Plain cs :=
    ⟨fun n => ⟨hfront, hbody, by simp, by simp⟩, ⟨hfront, hbody, by simp, by simp⟩⟩
  unfold cutNumber
  split
  · rename_i rest
    have hfront : '-' :: rest.takeWhile (fun c => c.isDigit || c == '.') <+: '-' :: rest :=
      List.cons_prefix_cons.mpr ⟨rfl, List.takeWhile_prefix _⟩
    have hminus := hplain hfront (List.forall_mem_cons.mpr ⟨rfl, hdigits rest⟩)
    dsimp only
    split
    · exact hminus.1 _
    · exact hminus.2
  · have hplus := hplain (List.takeWhile_prefix _) (hdigits cs)
    dsimp only
    split
    · exact hplus.1 _
    · exact hplus.2

theorem plain_cutName (cs : List Char) : (cutName cs).Plain cs := by
  refine ⟨List.takeWhile_prefix _, ?_, ?_, by simp [cutName]⟩
  · intro c hc
    exact isQuote_eq_false_of (List.mem_takeWhile_imp hc) (by decide) (by decide)
  · intro text taken h
    simp only [cutName, Cut.lexeme.injEq] at h
    have hname := h.1
    unfold ofName at hname
    split at hname <;> cases hname

theorem plain_cutMark {c : Char} (h : isQuote c = false) (rest : List Char) :
    (cutMark c rest).Plain (c :: rest) := by
  unfold cutMark
  split
  case h_14 => exact ⟨by simp [Cut.taken], by simpa [Cut.taken] using h, by simp, by simp⟩
  all_goals exact ⟨by simp [Cut.taken], by simp [Cut.taken, isQuote], by simp, by simp⟩

theorem plain_cut {c : Char} (h : isQuote c = false) (rest : List Char) : (cut c rest).Plain (c :: rest) := by
  have hquote : (c == '\x22' || c == '\x27') = false := h
  unfold cut
  rw [hquote]
  split
  · exact plain_cutNumber _
  · split
    · contradiction
    · split
      · exact plain_cutName _
      · exact plain_cutMark h rest

theorem cut_of_isQuote {q : Char} (hq : isQuote q = true) (rest : List Char) : cut q rest = cutString q rest := by
  have hquote : q = '\x22' ∨ q = '\x27' := by simpa [isQuote] using hq
  rcases hquote with rfl | rfl <;> rfl

/-- A string stands between two quotes of one kind. -/
theorem cut_quoted {q : Char} (hq : isQuote q = true) {text : List Char} (h : q ∉ text) (behind : List Char) :
    cut q (text ++ q :: behind) = .lexeme (.string (String.ofList text)) (q :: text ++ [q]) := by
  have hbody : (text ++ q :: behind).takeWhile (· != q) = text := by
    rw [List.takeWhile_append_of_pos]
    · simp
    · intro c hc
      simpa using ne_of_mem_of_not_mem hc h
  rw [cut_of_isQuote hq, cutString, hbody]
  simp

/-- A quote without another of its kind behind it begins no string. -/
theorem cut_unclosed {q : Char} (hq : isQuote q = true) {rest : List Char} (h : q ∉ rest) :
    cut q rest = .fault .unterminatedString (q :: rest) := by
  have hbody : rest.takeWhile (· != q) = rest := by
    rw [List.takeWhile_eq_self_iff]
    intro c hc
    simpa using ne_of_mem_of_not_mem hc h
  rw [cut_of_isQuote hq, cutString, hbody]
  simp

theorem prefix_of_cut {c : Char} {rest taken : List Char} {l : Lexeme} (h : cut c rest = .lexeme l taken) :
    taken <+: c :: rest := by
  cases hc : isQuote c with
  | false =>
    have hplain := (plain_cut hc rest).front
    rw [h] at hplain
    exact hplain
  | true =>
    by_cases hmem : c ∈ rest
    · obtain ⟨text, behind, hrest, htext⟩ := List.eq_append_cons_of_mem hmem
      rw [hrest, cut_quoted hc htext] at h
      cases h
      exact ⟨behind, by simp [hrest]⟩
    · rw [cut_unclosed hc hmem] at h
      cases h

theorem lexFrom_nil (offset : Nat) : lexFrom offset [] = .ok ⟨[], offset⟩ := by
  rw [lexFrom.eq_def]

theorem lexFrom_blank {offset : Nat} {c : Char} {rest : List Char} (hc : Text.isBlank c = true) :
    lexFrom offset (c :: rest) = lexFrom (offset + c.utf8Size) rest := by
  rw [lexFrom.eq_def]
  exact if_pos hc

theorem lexFrom_token {offset : Nat} {c : Char} {rest taken behind : List Char} {l : Lexeme}
    (hc : Text.isBlank c = false) (hcut : cut c rest = .lexeme l taken) (hcs : c :: rest = taken ++ behind) :
    lexFrom offset (c :: rest) = (lexFrom (offset + byteSize taken) behind).map fun ts =>
      ⟨⟨l, ⟨offset, offset + byteSize taken⟩⟩ :: ts.toList, ts.stop⟩ := by
  have hbehind : (c :: rest).drop taken.length = behind := by rw [hcs, List.drop_left]
  rw [lexFrom.eq_def]
  dsimp only
  rw [if_neg (Bool.eq_false_iff.mp hc)]
  split
  · rename_i hfault
    rw [hcut] at hfault
    cases hfault
  · rename_i hlexeme
    rw [hcut] at hlexeme
    cases hlexeme
    rw [hbehind]

/-- From byte `offset` on, the tokens are read of `cs`; that leads to byte `stop`, and `ahead` is left. -/
inductive Run : Nat → List Char → List Token → Nat → List Char → Prop
  | done {offset : Nat} {cs : List Char} : Run offset cs [] offset cs
  | blank {offset stop : Nat} {c : Char} {rest ahead : List Char} {tokens : List Token}
      (hc : Text.isBlank c = true) (h : Run (offset + c.utf8Size) rest tokens stop ahead) :
      Run offset (c :: rest) tokens stop ahead
  | token {offset stop : Nat} {c : Char} {rest taken behind ahead : List Char} {l : Lexeme} {tokens : List Token}
      (hc : Text.isBlank c = false) (hcut : cut c rest = .lexeme l taken) (hcs : c :: rest = taken ++ behind)
      (h : Run (offset + byteSize taken) behind tokens stop ahead) :
      Run offset (c :: rest) (⟨l, ⟨offset, offset + byteSize taken⟩⟩ :: tokens) stop ahead

/-- In front of `cs` stands what begins no token. -/
def Halts (cs : List Char) (f : LexFault) (taken : List Char) : Prop :=
  ∃ c rest, cs = c :: rest ∧ Text.isBlank c = false ∧ cut c rest = .fault f taken

namespace Run

variable {offset stop : Nat} {cs ahead : List Char} {tokens : List Token}

theorem of_lexFrom_eq_ok {ts : Tokens} (h : lexFrom offset cs = .ok ts) : Run offset cs ts.toList ts.stop [] := by
  fun_induction lexFrom offset cs generalizing ts with
  | case1 offset =>
    cases h
    exact .done
  | case2 offset c rest hblank ih => exact .blank hblank (ih h)
  | case3 offset c rest hblank f taken hcut => cases h
  | case4 offset c rest hblank l taken hcut next =>
    rename_i ih
    obtain ⟨more, hmore, hts⟩ := map_eq_ok_iff.mp h
    subst hts
    obtain ⟨behind, hcs⟩ := prefix_of_cut hcut
    have hbehind : (c :: rest).drop taken.length = behind := by rw [← hcs, List.drop_left]
    rw [hbehind] at ih hmore
    exact .token (Bool.eq_false_iff.mpr hblank) hcut hcs.symm (ih hmore)

theorem of_lexFrom_eq_error {e : LexError} (h : lexFrom offset cs = .error e) :
    ∃ tokens ahead taken, Run offset cs tokens e.span.start ahead ∧ Halts ahead e.fault taken ∧
      e.span.stop = e.span.start + byteSize taken := by
  fun_induction lexFrom offset cs with
  | case1 offset => cases h
  | case2 offset c rest hblank ih =>
    obtain ⟨tokens, ahead, taken, hrun, hhalts⟩ := ih h
    exact ⟨tokens, ahead, taken, .blank hblank hrun, hhalts⟩
  | case3 offset c rest hblank f taken hcut =>
    cases h
    exact ⟨[], c :: rest, taken, .done, ⟨c, rest, rfl, Bool.eq_false_iff.mpr hblank, hcut⟩, rfl⟩
  | case4 offset c rest hblank l taken hcut next ih =>
    obtain ⟨behind, hcs⟩ := prefix_of_cut hcut
    have hbehind : (c :: rest).drop taken.length = behind := by rw [← hcs, List.drop_left]
    obtain ⟨tokens, ahead, lost, hrun, hhalts⟩ := ih (map_eq_error_iff.mp h)
    rw [hbehind] at hrun
    exact ⟨_, ahead, lost, .token (Bool.eq_false_iff.mpr hblank) hcut hcs.symm hrun, hhalts⟩

/-- Behind a run the lexer goes on as if it began there. -/
theorem lexFrom_eq (h : Run offset cs tokens stop ahead) :
    lexFrom offset cs = (lexFrom stop ahead).map fun ts => ⟨tokens ++ ts.toList, ts.stop⟩ := by
  induction h with
  | @done offset cs => cases lexFrom offset cs <;> rfl
  | blank hc h ih => rw [lexFrom_blank hc, ih]
  | @token offset stop c rest taken behind ahead l tokens hc hcut hcs h ih =>
    rw [lexFrom_token hc hcut hcs, ih]
    cases lexFrom stop ahead <;> rfl

theorem lex_eq (h : Run 0 cs tokens stop []) : lex cs = .ok ⟨tokens, stop⟩ := by
  rw [lex, h.lexFrom_eq, lexFrom_nil]
  simp [Except.map]

/-- A run leaves over what it does not pass. -/
theorem exists_passed (h : Run offset cs tokens stop ahead) :
    ∃ passed, cs = passed ++ ahead ∧ stop = offset + byteSize passed := by
  induction h with
  | done => exact ⟨[], rfl, rfl⟩
  | @blank offset stop c rest ahead tokens hc h ih =>
    obtain ⟨passed, hrest, hstop⟩ := ih
    refine ⟨c :: passed, by rw [hrest]; rfl, ?_⟩
    rw [hstop, byteSize, Nat.add_assoc]
  | @token offset stop c rest taken behind ahead l tokens hc hcut hcs h ih =>
    obtain ⟨passed, hbehind, hstop⟩ := ih
    refine ⟨taken ++ passed, by rw [hcs, hbehind, List.append_assoc], ?_⟩
    rw [hstop, byteSize_append, Nat.add_assoc]

/-- A token takes at least one byte of those that the run passes. -/
theorem span_of_mem (h : Run offset cs tokens stop ahead) {t : Token} (ht : t ∈ tokens) :
    t.span.start < t.span.stop ∧ t.span.stop ≤ stop := by
  induction h with
  | done => cases ht
  | blank hc h ih => exact ih ht
  | @token offset stop c rest taken behind ahead l tokens hc hcut hcs h ih =>
    rcases List.mem_cons.mp ht with hfirst | hlater
    · obtain ⟨passed, -, hstop⟩ := h.exists_passed
      have hpos : 0 < byteSize taken := byteSize_pos (List.ne_nil_of_length_pos (length_pos_of_cut hcut))
      rw [hfirst]
      dsimp only
      omega
    · exact ih hlater

/-- A token begins between two characters of the content. -/
theorem exists_start_of_mem (h : Run offset cs tokens stop ahead) {t : Token} (ht : t ∈ tokens) :
    ∃ front back, cs = front ++ back ∧ t.span.start = offset + byteSize front := by
  induction h with
  | done => cases ht
  | @blank offset stop c rest ahead tokens hc h ih =>
    obtain ⟨front, back, hrest, hstart⟩ := ih ht
    refine ⟨c :: front, back, by rw [hrest]; rfl, ?_⟩
    rw [hstart, byteSize, Nat.add_assoc]
  | @token offset stop c rest taken behind ahead l tokens hc hcut hcs h ih =>
    rcases List.mem_cons.mp ht with hfirst | hlater
    · exact ⟨[], c :: rest, rfl, by rw [hfirst]; rfl⟩
    · obtain ⟨front, back, hbehind, hstart⟩ := ih hlater
      refine ⟨taken ++ front, back, by rw [hcs, hbehind, List.append_assoc], ?_⟩
      rw [hstart, byteSize_append, Nat.add_assoc]

end Run

end TextTemplate.Token
