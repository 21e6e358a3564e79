import Mathlib.Data.Set.Basic
import TextTemplate.Proofs.Render.Frame
import TextTemplate.Proofs.Render.Names

namespace TextTemplate

open Outcome (Related)

namespace Scope

theorem over_set (s : Scope) (c : Context) (name key : String) (v : Value) :
    (s.set name v).over c key = if key = name then some v else s.over c key := by
  rw [Scope.over, get?_set]
  by_cases h : key = name
  · rw [if_pos h, if_pos h, Option.some_or]
  · rw [if_neg h, if_neg h]
    rfl

theorem over_set_self (s : Scope) (c : Context) (name : String) (v : Value) :
    (s.set name v).over c name = some v := by
  rw [over_set, if_pos rfl]

theorem over_restore (s : Scope) (c : Context) (name key : String) (previous : Option Value) :
    (s.restore name previous).over c key =
      if key = name then previous.or (c.get? key) else s.over c key := by
  rw [Scope.over, get?_restore]
  by_cases h : key = name
  · rw [if_pos h, if_pos h]
  · rw [if_neg h, if_neg h]
    rfl

theorem over_congr {s t : Scope} (c : Context) {name : String} (h : s.get? name = t.get? name) :
    s.over c name = t.over c name := by
  rw [Scope.over, Scope.over, h]

end Scope

/-- Each name of `S` stands on the left for what its counterpart under `f` stands for on the right. -/
def Names.Agree (f : String → String) (S : Set String) (names names' : Names) : Prop :=
  ∀ name ∈ S, names name = names' (f name)

/-- Evaluated under names that agree, both give the same value or fail with errors that `E` relates. -/
def AlikeValues (E : RenderError → RenderError → Prop) (f : String → String) (S : Set String)
    (value value' : Names → Except RenderError Value) : Prop :=
  ∀ names names', Names.Agree f S names names' → Related E Eq (value names) (value' names')

/-- How names correspond inside of a loop over `a` and one over `b`, by `g` on `T`, if outside they do by `f`
on `S`: the variables do, and every other name as before, unless one of the variables hides it. -/
structure Enters (f : String → String) (S : Set String) (a b : String) (g : String → String) (T : Set String) :
    Prop where
  loopVariable : ∀ name ∈ T, name = a → g name = b
  other : ∀ name ∈ T, name ≠ a → name ∈ S ∧ g name = f name ∧ g name ≠ b
  unhidden : ∀ name ∈ S, name ≠ a → f name ≠ b → name ∈ T ∧ g name = f name

section

variable (E : RenderError → RenderError → Prop) (r r' : Registry)

mutual

/-- The same up to names, with those of `S` corresponding by `f`. What a loop variable hides on one side only,
the body on the other side must not bind for good. -/
inductive Node.Alike : (String → String) → Set String → Node → Node → Prop where
  | text {f S} (content) : Node.Alike f S (.text content) (.text content)
  | output {f S e e'} (he : AlikeValues E f S (e.value r) (e'.value r')) :
    Node.Alike f S (.output e) (.output e')
  | conditional {f S chain chain'} (h : Chain.Alike f S chain chain') :
    Node.Alike f S (.conditional chain) (.conditional chain')
  | loop {f S a b source source' body body'} (g T)
    (hsource : AlikeValues E f S (source.value r) (source'.value r')) (hbody : Node.AllAlike g T body body')
    (hnames : Enters f S a b g T)
    (hleft : ∀ name ∈ S, name ≠ a → f name = b → name ∉ Node.assignedAll body)
    (hright : a ∈ S → f a ≠ b → f a ∉ Node.assignedAll body') :
    Node.Alike f S (.loop a source body) (.loop b source' body')
  | assign {f S a b e e'} (he : AlikeValues E f S (e.value r) (e'.value r'))
    (hname : ∀ name ∈ S, name = a ↔ f name = b) : Node.Alike f S (.assign a e) (.assign b e')

inductive Node.AllAlike : (String → String) → Set String → List Node → List Node → Prop where
  | nil {f S} : Node.AllAlike f S [] []
  | cons {f S node node' rest rest'} (h : Node.Alike f S node node') (hrest : Node.AllAlike f S rest rest') :
    Node.AllAlike f S (node :: rest) (node' :: rest')

inductive Chain.Alike : (String → String) → Set String → Chain → Chain → Prop where
  | stop {f S} : Chain.Alike f S .stop .stop
  | otherwise {f S body body'} (h : Node.AllAlike f S body body') :
    Chain.Alike f S (.otherwise body) (.otherwise body')
  | test {f S condition condition' body body' rest rest'}
    (hc : AlikeValues E f S (condition.value r) (condition'.value r')) (h : Node.AllAlike f S body body')
    (hrest : Chain.Alike f S rest rest') :
    Chain.Alike f S (.test condition body rest) (.test condition' body' rest')

end

end

section

variable {f g : String → String} {S T : Set String} {c c' : Context} {p p' : String} {d d' : Draft}

/-- Two renders that started with `p` and `p'` written have written the same text behind them, and their names
agree. -/
structure Draft.Agree (f : String → String) (S : Set String) (c c' : Context) (p p' : String) (d d' : Draft) :
    Prop where
  output : ∃ text, d.output = p ++ text ∧ d'.output = p' ++ text
  names : Names.Agree f S (d.scope.over c) (d'.scope.over c')

namespace Draft.Agree

theorem start (h : Names.Agree f S (d.scope.over c) (d'.scope.over c')) :
    Draft.Agree f S c c' d.output d'.output d d' :=
  ⟨⟨"", by simp⟩, h⟩

theorem write (h : Draft.Agree f S c c' p p' d d') (s : String) :
    Draft.Agree f S c c' p p' (d.write s) (d'.write s) := by
  obtain ⟨text, hd, hd'⟩ := h.output
  refine ⟨⟨text ++ s, ?_, ?_⟩, h.names⟩
  · rw [output_write, hd, String.append_assoc]
  · rw [output_write, hd', String.append_assoc]

/-- Names agree after `a` is bound on the left and `b` on the right, if these two correspond and the others
agreed before. -/
theorem bind {a b : String} (h : Draft.Agree f T c c' p p' d d') (v : Value)
    (hboth : ∀ name ∈ S, name = a → g name = b)
    (hothers : ∀ name ∈ S, name ≠ a → name ∈ T ∧ g name = f name ∧ g name ≠ b) :
    Draft.Agree g S c c' p p' (d.bind a v) (d'.bind b v) := by
  refine ⟨h.output, ?_⟩
  intro name hname
  rw [scope_bind, scope_bind, Scope.over_set, Scope.over_set]
  by_cases ha : name = a
  · rw [if_pos ha, if_pos (hboth name hname ha)]
  · obtain ⟨hT, hg, hb⟩ := hothers name hname ha
    rw [if_neg ha, if_neg hb, hg]
    exact h.names name hT

end Draft.Agree

/-- Between the iterations of two loops over `a` and `b` that started at `d` and `d'`, the names agree that
neither variable hides, and one that a variable hides on one side only is bound on the other as at the start. -/
structure Draft.Between (f : String → String) (S : Set String) (a b : String) (c c' : Context) (p p' : String)
    (d d' e e' : Draft) : Prop where
  agree : Draft.Agree f {name ∈ S | name ≠ a ∧ f name ≠ b} c c' p p' e e'
  left : ∀ name ∈ S, name ≠ a → f name = b → e.scope.get? name = d.scope.get? name
  right : a ∈ S → f a ≠ b → e'.scope.get? (f a) = d'.scope.get? (f a)

namespace Draft.Between

variable {a b : String} {e e' : Draft}

theorem start (h : Draft.Agree f S c c' p p' d d') : Draft.Between f S a b c c' p p' d d' d d' :=
  ⟨⟨h.output, fun name hname => h.names name hname.1⟩, fun _ _ _ _ => rfl, fun _ _ => rfl⟩

theorem enter (hnames : Enters f S a b g T) (h : Draft.Between f S a b c c' p p' d d' e e') (item : Value) :
    Draft.Agree g T c c' p p' (e.bind a item) (e'.bind b item) := by
  refine h.agree.bind item hnames.loopVariable ?_
  intro name hname ha
  obtain ⟨hS, hg, hb⟩ := hnames.other name hname ha
  exact ⟨⟨hS, ha, hg ▸ hb⟩, hg, hb⟩

theorem leave {x x' : Draft} (hnames : Enters f S a b g T) (h : Draft.Between f S a b c c' p p' d d' e e')
    (hbody : Draft.Agree g T c c' p p' x x')
    (hleft : ∀ name ∈ S, name ≠ a → f name = b → x.scope.get? name = e.scope.get? name)
    (hright : a ∈ S → f a ≠ b → x'.scope.get? (f a) = e'.scope.get? (f a)) :
    Draft.Between f S a b c c' p p' d d' x x' := by
  refine ⟨⟨hbody.output, ?_⟩, ?_, ?_⟩
  · rintro name ⟨hname, ha, hb⟩
    obtain ⟨hT, hg⟩ := hnames.unhidden name hname ha hb
    rw [← hg]
    exact hbody.names name hT
  · exact fun name hname ha hb => (hleft name hname ha hb).trans (h.left name hname ha hb)
  · exact fun ha hb => (hright ha hb).trans (h.right ha hb)

/-- Once both variables have their old bindings back, all names agree again. -/
theorem finish (hstart : Draft.Agree f S c c' p p' d d') (h : Draft.Between f S a b c c' p p' d d' e e') :
    Draft.Agree f S c c' p p' (e.restore a (d.scope.get? a)) (e'.restore b (d'.scope.get? b)) := by
  refine ⟨h.agree.output, ?_⟩
  intro name hname
  have hbefore := hstart.names name hname
  rw [scope_restore, scope_restore, Scope.over_restore, Scope.over_restore]
  by_cases ha : name = a <;> by_cases hb : f name = b
  · rw [if_pos ha, if_pos hb, ← ha, ← hb]
    exact hbefore
  · rw [if_pos ha, if_neg hb, ← ha]
    subst ha
    exact hbefore.trans (Scope.over_congr c' (h.right hname hb)).symm
  · rw [if_neg ha, if_pos hb, ← hb]
    exact (Scope.over_congr c (h.left name hname ha hb)).trans hbefore
  · rw [if_neg ha, if_neg hb]
    exact h.agree.names name ⟨hname, ha, hb⟩

end Draft.Between

end

section

variable {E : RenderError → RenderError → Prop} {r r' : Registry} {c c' : Context} {p p' : String}

mutual

/-- Alike nodes write the same from drafts whose names agree, and leave names that agree, or both fail. -/
theorem Node.Alike.related_render {f : String → String} {S : Set String} {node node' : Node}
    (h : Node.Alike E r r' f S node node') {d d' : Draft} (hd : Draft.Agree f S c c' p p' d d') :
    Related E (Draft.Agree f S c c' p p') (node.render r c d) (node'.render r' c' d') := by
  cases h with
  | text content => exact .ok (hd.write content)
  | output he =>
    refine (he _ _ hd.names).bind ?_
    rintro v _ - - rfl
    exact .ok (hd.write v.text)
  | conditional h => exact h.related_render hd
  | assign he hname =>
    refine (he _ _ hd.names).bind ?_
    rintro v _ - - rfl
    refine .ok (hd.bind v (fun name hmem ha => (hname name hmem).mp ha) ?_)
    intro name hmem ha
    exact ⟨hmem, rfl, fun hb => ha ((hname name hmem).mpr hb)⟩
  | @loop _ _ a b _ _ body body' g T hsource hbody hnames hleft hright =>
    refine (hsource _ _ hd.names).bind ?_
    rintro v _ - - rfl
    cases v with
    | nil | boolean | number | string | date | object => exact .ok hd
    | array items =>
      -- During the loop the variables hide names, so all names agree only before it and after it.
      have hrun : Related E (Draft.Between f S a b c c' p p' d d')
          (items.foldlM (fun d item => Node.renderAll r c body (d.bind a item)) d)
          (items.foldlM (fun d item => Node.renderAll r' c' body' (d.bind b item)) d') := by
        refine Related.foldlM ?_ items (.start hd)
        intro e e' item he
        refine (hbody.related_render (he.enter hnames item)).mono ?_
        intro x x' hx hx' hxx
        refine he.leave hnames hxx ?_ ?_
        -- What is hidden on one side only is not bound by the body on the other.
        · intro name hname ha hb
          rw [Node.get?_of_renderAll body hx (hleft name hname ha hb), Draft.scope_bind, Scope.get?_set,
            if_neg ha]
        · intro ha hb
          rw [Node.get?_of_renderAll body' hx' (hright ha hb), Draft.scope_bind, Scope.get?_set, if_neg hb]
      refine hrun.bind ?_
      intro e e' _ _ he
      exact .ok (he.finish hd)

theorem Node.AllAlike.related_render {f : String → String} {S : Set String} {nodes nodes' : List Node}
    (h : Node.AllAlike E r r' f S nodes nodes') {d d' : Draft} (hd : Draft.Agree f S c c' p p' d d') :
    Related E (Draft.Agree f S c c' p p') (Node.renderAll r c nodes d) (Node.renderAll r' c' nodes' d') := by
  cases h with
  | nil => exact .ok hd
  | cons h hrest =>
    refine (h.related_render hd).bind ?_
    intro e e' _ _ he
    exact hrest.related_render he

theorem Chain.Alike.related_render {f : String → String} {S : Set String} {chain chain' : Chain}
    (h : Chain.Alike E r r' f S chain chain') {d d' : Draft} (hd : Draft.Agree f S c c' p p' d d') :
    Related E (Draft.Agree f S c c' p p') (chain.render r c d) (chain'.render r' c' d') := by
  cases h with
  | stop => exact .ok hd
  | otherwise h => exact h.related_render hd
  | test hc h hrest =>
    refine (hc _ _ hd.names).bind ?_
    rintro v _ - - rfl
    by_cases hv : v.isTruthy
    · rw [if_pos hv, if_pos hv]
      exact h.related_render hd
    · rw [if_neg hv, if_neg hv]
      exact hrest.related_render hd

end

end

end TextTemplate
