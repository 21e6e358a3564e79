import TextTemplate.Proofs.Expr.Derivation
import TextTemplate.Proofs.Expr.TokenRun

namespace TextTemplate

namespace Text

/-- The text of a name: a character that begins names, then characters that names go on with. -/
def IsName (text : String) : Prop :=
  ∃ c rest, text.toList = c :: rest ∧ startsName c = true ∧ ∀ d ∈ rest, continuesName d = true

end Text

namespace Token

/-- The names that stand for literals. -/
def literalWords : List String := ["true", "false", "nil", "null"]

/-- A name that is not the word of a literal. -/
structure IsVariable (name : String) : Prop where
  isName : Text.IsName name
  not_literal : name ∉ literalWords

/-- An identifier names a variable, and a number is a number. -/
def Lexeme.Sound : Lexeme → Prop
  | identifier name => IsVariable name
  | number n => n ≠ .nan
  | _ => True

end Token

theorem Number.ofRatio_ne_nan (negative : Bool) (num den : Nat) : ofRatio negative num den ≠ .nan := by
  unfold ofRatio
  split <;> simp

theorem Number.ofDecimal_ne_nan (d : Decimal) : ofDecimal d ≠ .nan := by
  unfold ofDecimal
  split
  · simp [zero]
  · split
    · simp
    · split
      · simp [zero]
      · exact ofRatio_ne_nan _ _ _

namespace Token

variable {c : Char} {rest taken : List Char} {l : Lexeme}

theorem sound_of_cutNumber {cs : List Char} (h : cutNumber cs = .lexeme l taken) : l.Sound := by
  unfold cutNumber at h
  dsimp only at h
  split at h
  · cases h
    exact Number.ofDecimal_ne_nan _
  · cases h

theorem sound_of_cutString {quote : Char} {cs : List Char} (h : cutString quote cs = .lexeme l taken) : l.Sound := by
  unfold cutString at h
  dsimp only at h
  split at h
  · cases h
    trivial
  · cases h

theorem sound_ofName {name : String} (h : Text.IsName name) : (ofName name).Sound := by
  unfold ofName
  split
  case h_5 htrue hfalse hnil hnull =>
    have hliteral : name ∉ literalWords := by
      intro hmem
      simp only [literalWords, List.mem_cons, List.not_mem_nil, or_false] at hmem
      rcases hmem with hw | hw | hw | hw
      · exact htrue hw
      · exact hfalse hw
      · exact hnil hw
      · exact hnull hw
    exact ⟨h, hliteral⟩
  all_goals trivial

theorem sound_of_cutName (hc : Text.startsName c = true) (h : cutName (c :: rest) = .lexeme l taken) : l.Sound := by
  unfold cutName at h
  cases h
  refine sound_ofName ⟨c, rest.takeWhile Text.continuesName, ?_, hc, ?_⟩
  · rw [String.toList_ofList, List.takeWhile_cons_of_pos (Text.continuesName_of_startsName c hc)]
  · intro d hd
    exact List.mem_takeWhile_imp hd

theorem sound_of_cutMark (h : cutMark c rest = .lexeme l taken) : l.Sound := by
  unfold cutMark at h
  split at h <;> cases h <;> trivial

theorem sound_of_cut (h : cut c rest = .lexeme l taken) : l.Sound := by
  unfold cut at h
  split at h
  · exact sound_of_cutNumber h
  · split at h
    · exact sound_of_cutString h
    · split at h
      · rename_i hc
        exact sound_of_cutName hc h
      · exact sound_of_cutMark h

theorem Run.sound_of_mem {offset stop : Nat} {cs ahead : List Char} {tokens : List Token}
    (h : Run offset cs tokens stop ahead) {t : Token} (ht : t ∈ tokens) : t.lexeme.Sound := by
  induction h with
  | done => cases ht
  | blank hc h ih => exact ih ht
  | token hc hcut hcs h ih =>
    rcases List.mem_cons.mp ht with hfirst | hlater
    · rw [hfirst]
      exact sound_of_cut hcut
    · exact ih hlater

/-- All that a lexer reads is sound. -/
theorem sound_of_lex {content : List Char} {ts : Tokens} (h : lex content = .ok ts) :
    ∀ l ∈ ts.toList.map (·.lexeme), l.Sound := by
  intro l hl
  obtain ⟨t, ht, rfl⟩ := List.mem_map.mp hl
  exact (Run.of_lexFrom_eq_ok h).sound_of_mem ht

end Token

/-- Expressions as trees of one kind: each part could be any expression. The types `Primary`, `Filtered` and
`Condition` have room for fewer shapes. -/
inductive Expr where
  | literal (value : Literal)
  | path (segments : List Segment)
  | filters (base : Expr) (calls : List (String × List Expr))
  | comparison (op : CompareOp) (left right : Expr)

def Primary.expr : Primary → Expr
  | literal value _ => .literal value
  | path segments _ => .path segments

/-- An expression without filters is its base, so no tree that is read has an empty chain of filters. -/
def Filtered.expr (e : Filtered) : Expr :=
  if e.calls = [] then e.base.expr
  else .filters e.base.expr (e.calls.map fun call => (call.name, call.args.map Primary.expr))

def Condition.expr : Condition → Expr
  | holds e => e.expr
  | compares op left right => .comparison op left.expr right.expr

namespace Expr

/-- A literal that is no faulty number, or a path that begins with a variable. That it is one of the two the type
`Primary` says; the rest is shown of the lexer and the parser. -/
inductive Simple : Expr → Prop
  | literal {value : Literal} (h : value ≠ .number .nan) : Simple (.literal value)
  | path {name : String} {more : List Segment} (h : Token.IsVariable name) : Simple (.path (.key name :: more))

/-- Simple, or simple with at least one filter behind. The type `Filtered` says that nothing else stands in it; that
its parts are simple is shown of the parser. -/
inductive Plain : Expr → Prop
  | simple {e : Expr} (h : Simple e) : Plain e
  | filters {base : Expr} {calls : List (String × List Expr)} (hbase : Simple base) (hsome : calls ≠ [])
      (hargs : ∀ call ∈ calls, ∀ arg ∈ call.2, Simple arg) : Plain (.filters base calls)

/-- Plain, or one comparison of plain sides. The type `Condition` says that a comparison stands at the top only; that
its sides are plain is shown of the parser. -/
inductive Test : Expr → Prop
  | plain {e : Expr} (h : Plain e) : Test e
  | comparison {op : CompareOp} {left right : Expr} (hleft : Plain left) (hright : Plain right) :
      Test (.comparison op left right)

end Expr

namespace Grammar

variable {ls : List Token.Lexeme}

theorem simple_of_derives {p : Primary} (h : DerivesPrimary ls p) (hls : ∀ l ∈ ls, l.Sound) : p.expr.Simple := by
  cases h with
  | number =>
    have hnumber := hls _ List.mem_cons_self
    exact .literal fun he => hnumber (Literal.number.inj he)
  | string | boolean | nil => exact .literal (by simp)
  | path h => exact .path (hls _ List.mem_cons_self)

theorem simple_of_derivesArguments {args : List Primary} (h : DerivesArguments ls args) (hls : ∀ l ∈ ls, l.Sound) :
    ∀ arg ∈ args, arg.expr.Simple := by
  induction h with
  | last h =>
    intro arg harg
    rw [List.mem_singleton.mp harg]
    exact simple_of_derives h hls
  | more h hargs ih =>
    rw [List.forall_mem_append, List.forall_mem_cons] at hls
    rw [List.forall_mem_cons]
    exact ⟨simple_of_derives h hls.1, ih hls.2.2⟩

theorem simple_of_derivesCallArguments {args : List Primary} (h : DerivesCallArguments ls args)
    (hls : ∀ l ∈ ls, l.Sound) : ∀ arg ∈ args, arg.expr.Simple := by
  cases h with
  | none => exact fun _ harg => absurd harg List.not_mem_nil
  | some h => exact simple_of_derivesArguments h (List.forall_mem_cons.mp hls).2

theorem simple_of_derivesCalls {calls : List FilterCall} (h : DerivesCalls ls calls) (hls : ∀ l ∈ ls, l.Sound) :
    ∀ call ∈ calls, ∀ arg ∈ call.args, arg.expr.Simple := by
  induction h with
  | done => exact fun _ hcall => absurd hcall List.not_mem_nil
  | call hargs h ih =>
    rw [List.forall_mem_cons, List.forall_mem_cons, List.forall_mem_append] at hls
    rw [List.forall_mem_cons]
    exact ⟨simple_of_derivesCallArguments hargs hls.2.2.1, ih hls.2.2.2⟩

theorem plain_of_derives {e : Filtered} (h : DerivesFiltered ls e) (hls : ∀ l ∈ ls, l.Sound) : e.expr.Plain := by
  cases h with
  | @filtered ls ms base calls hbase hcalls =>
    rw [List.forall_mem_append] at hls
    have hsimple : base.expr.Simple := simple_of_derives hbase hls.1
    have hargs : ∀ call ∈ calls, ∀ arg ∈ call.args, arg.expr.Simple := simple_of_derivesCalls hcalls hls.2
    rw [Filtered.expr]
    by_cases hnone : calls = []
    · rw [if_pos hnone]
      exact .simple hsimple
    · rw [if_neg hnone]
      refine .filters hsimple (by simpa using hnone) ?_
      intro call hcall arg harg
      obtain ⟨source, hsource, rfl⟩ := List.mem_map.mp hcall
      obtain ⟨p, hp, rfl⟩ := List.mem_map.mp harg
      exact hargs source hsource p hp

theorem test_of_derives {c : Condition} (h : DerivesCondition ls c) (hls : ∀ l ∈ ls, l.Sound) : c.expr.Test := by
  cases h with
  | holds h => exact .plain (plain_of_derives h hls)
  | compares hleft hright =>
    rw [List.forall_mem_append, List.forall_mem_cons] at hls
    exact .comparison (plain_of_derives hleft hls.1) (plain_of_derives hright hls.2.2)

theorem plain_of_filtered {ts : List Token} {e : Filtered} (h : filtered ts = (.ok e, []))
    (hts : ∀ l ∈ ts.map (·.lexeme), l.Sound) : e.expr.Plain := by
  obtain ⟨used, hused, hderives⟩ := took_of_filtered h
  rw [List.append_nil] at hused
  exact plain_of_derives (hused ▸ hderives) hts

theorem test_of_condition {ts : List Token} {c : Condition} (h : condition ts = (.ok c, []))
    (hts : ∀ l ∈ ts.map (·.lexeme), l.Sound) : c.expr.Test := by
  obtain ⟨used, hused, hderives⟩ := took_of_condition h
  rw [List.append_nil] at hused
  exact test_of_derives (hused ▸ hderives) hts

end Grammar

end TextTemplate
