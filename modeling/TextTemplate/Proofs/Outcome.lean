import TextTemplate.Source.Place

namespace TextTemplate.Outcome

variable {ε ε' α α' β β' : Type}

theorem bind_eq_ok_iff {x : Except ε α} {f : α → Except ε β} {b : β} :
    (x >>= f) = .ok b ↔ ∃ a, x = .ok a ∧ f a = .ok b := by
  cases x <;> simp [bind, Except.bind]

/-- Of a check only matters that it succeeds. -/
theorem check_eq_ok_iff {x : Except ε Unit} {y : Except ε β} {b : β} :
    (x >>= fun _ => y) = .ok b ↔ x = .ok () ∧ y = .ok b := by
  cases x <;> simp [bind, Except.bind]

theorem bind_eq_error_iff {x : Except ε α} {f : α → Except ε β} {e : ε} :
    (x >>= f) = .error e ↔ x = .error e ∨ ∃ a, x = .ok a ∧ f a = .error e := by
  cases x <;> simp [bind, Except.bind]

theorem map_eq_ok_iff {x : Except ε α} {f : α → β} {b : β} :
    x.map f = .ok b ↔ ∃ a, x = .ok a ∧ f a = b := by
  cases x <;> simp [Except.map]

theorem map_eq_error_iff {x : Except ε α} {f : α → β} {e : ε} : x.map f = .error e ↔ x = .error e := by
  cases x <;> simp [Except.map]

theorem mapError_eq_ok_iff {x : Except ε α} {g : ε → ε'} {a : α} : x.mapError g = .ok a ↔ x = .ok a := by
  cases x with
  | ok b => constructor <;> rintro ⟨⟩ <;> rfl
  | error e => exact ⟨nofun, nofun⟩

theorem mapError_eq_error_iff {x : Except ε α} {g : ε → ε'} {e : ε'} :
    x.mapError g = .error e ↔ ∃ fault, x = .error fault ∧ g fault = e := by
  cases x with
  | ok b => exact ⟨nofun, nofun⟩
  | error fault =>
    constructor
    · intro h
      cases h
      exact ⟨fault, rfl, rfl⟩
    · rintro ⟨_, ⟨⟩, rfl⟩
      rfl

/-- A run over a list that fails succeeds up to the element that it fails at. -/
theorem exists_of_foldlM_eq_error {f : β → α → Except ε β} {b : β} {l : List α} {e : ε}
    (h : l.foldlM f b = .error e) :
    ∃ front a back c, l = front ++ a :: back ∧ front.foldlM f b = .ok c ∧ f c a = .error e := by
  induction l generalizing b with
  | nil => cases h
  | cons a l ih =>
    rw [List.foldlM_cons] at h
    rcases bind_eq_error_iff.mp h with hnow | ⟨c, hc, hlater⟩
    · exact ⟨[], a, l, b, rfl, rfl, hnow⟩
    · obtain ⟨front, x, back, d, rfl, hfront, hx⟩ := ih hlater
      refine ⟨a :: front, x, back, d, rfl, ?_, hx⟩
      rw [List.foldlM_cons]
      exact bind_eq_ok_iff.mpr ⟨c, hc, hfront⟩

/-- What every step that succeeds keeps, a run over a list keeps if it succeeds. -/
theorem foldlM_induction {P : β → Prop} {f : β → α → Except ε β} {l : List α} {b c : β}
    (hf : ∀ b a c, f b a = .ok c → P b → P c) (h : l.foldlM f b = .ok c) (hb : P b) : P c := by
  induction l generalizing b with
  | nil =>
    cases h
    exact hb
  | cons a l ih =>
    rw [List.foldlM_cons] at h
    obtain ⟨d, hd, hrest⟩ := bind_eq_ok_iff.mp h
    exact ih hrest (hf b a d hd hb)

/-- A run that succeeds is one of every other function whose steps succeed wherever they do. -/
theorem foldlM_eq_ok_mono {f g : β → α → Except ε β} {l : List α} {b c : β}
    (hfg : ∀ b a c, f b a = .ok c → g b a = .ok c) (h : l.foldlM f b = .ok c) : l.foldlM g b = .ok c := by
  induction l generalizing b with
  | nil => exact h
  | cons a l ih =>
    rw [List.foldlM_cons] at h ⊢
    obtain ⟨d, hd, hrest⟩ := bind_eq_ok_iff.mp h
    exact bind_eq_ok_iff.mpr ⟨d, hfg b a d hd, ih hrest⟩

theorem bind_mapError (x : Except ε α) (f : α → Except ε β) (g : ε → ε') :
    (x >>= f).mapError g = x.mapError g >>= fun a => (f a).mapError g := by
  cases x <;> rfl

theorem mapM_map_mapError {l : List α} {r : α → α'} {f : α → Except ε β} {f' : α' → Except ε' β}
    {g : ε → ε'} (h : ∀ a ∈ l, f' (r a) = (f a).mapError g) :
    (l.map r).mapM f' = (l.mapM f).mapError g := by
  induction l with
  | nil => rfl
  | cons a l ih =>
    rw [List.map_cons, List.mapM_cons, List.mapM_cons, bind_mapError, h a List.mem_cons_self,
      ih fun b hb => h b (List.mem_cons_of_mem a hb)]
    congr 1
    funext b
    rw [bind_mapError]
    rfl

theorem foldlM_map_mapError {l : List α} {r : α → α'} {f : β → α → Except ε β}
    {f' : β → α' → Except ε' β} {g : ε → ε'} (h : ∀ b, ∀ a ∈ l, f' b (r a) = (f b a).mapError g) (b : β) :
    (l.map r).foldlM f' b = (l.foldlM f b).mapError g := by
  induction l generalizing b with
  | nil => rfl
  | cons a l ih =>
    rw [List.map_cons, List.foldlM_cons, List.foldlM_cons, bind_mapError, h b a List.mem_cons_self]
    congr 1
    funext c
    exact ih (fun d x hx => h d x (List.mem_cons_of_mem a hx)) c

/-- Both succeed, with results that `R` relates, or both fail, with errors that `E` relates. -/
inductive Related (E : ε → ε' → Prop) (R : α → α' → Prop) : Except ε α → Except ε' α' → Prop where
  | ok {a a'} (h : R a a') : Related E R (.ok a) (.ok a')
  | error {e e'} (h : E e e') : Related E R (.error e) (.error e')

namespace Related

variable {E : ε → ε' → Prop} {R : α → α' → Prop} {Q : β → β' → Prop} {x : Except ε α} {x' : Except ε' α'}

theorem bind {f : α → Except ε β} {f' : α' → Except ε' β'} (h : Related E R x x')
    (hf : ∀ a a', x = .ok a → x' = .ok a' → R a a' → Related E Q (f a) (f' a')) :
    Related E Q (x >>= f) (x' >>= f') := by
  cases h with
  | ok h => exact hf _ _ rfl rfl h
  | error h => exact .error h

theorem map_left {Q : β → α' → Prop} {f : α → β} (h : Related E R x x')
    (hf : ∀ a a', x = .ok a → R a a' → Q (f a) a') : Related E Q (x.map f) x' := by
  cases h with
  | ok h => exact .ok (hf _ _ rfl h)
  | error h => exact .error h

theorem map {f : α → β} {f' : α' → β'} (h : Related E R x x') (hf : ∀ a a', R a a' → Q (f a) (f' a')) :
    Related E Q (x.map f) (x'.map f') := by
  cases h with
  | ok h => exact .ok (hf _ _ h)
  | error h => exact .error h

theorem mono {R' : α → α' → Prop} (h : Related E R x x')
    (hR : ∀ a a', x = .ok a → x' = .ok a' → R a a' → R' a a') : Related E R' x x' := by
  cases h with
  | ok h => exact .ok (hR _ _ rfl rfl h)
  | error h => exact .error h

theorem exists_of_ok_right {a' : α'} (h : Related E R x (.ok a')) : ∃ a, x = .ok a ∧ R a a' := by
  cases h with
  | ok h => exact ⟨_, rfl, h⟩

theorem trans {α'' : Type} {R' : α' → α'' → Prop} {Q : α → α'' → Prop} {x : Except ε α} {y : Except ε α'}
    {z : Except ε α''} (h : Related Eq R x y) (h' : Related Eq R' y z) (hQ : ∀ a b c, R a b → R' b c → Q a c) :
    Related Eq Q x z := by
  cases h with
  | ok h =>
    cases h' with
    | ok h' => exact .ok (hQ _ _ _ h h')
  | error h =>
    cases h' with
    | error h' => exact .error (h.trans h')

/-- What one step of two runs over a list keeps, the runs keep. -/
theorem foldlM_of_mem {f : α → β → Except ε α} {f' : α' → β → Except ε' α'} {l : List β}
    (hf : ∀ b ∈ l, ∀ a a', R a a' → Related E R (f a b) (f' a' b)) {a : α} {a' : α'} (h : R a a') :
    Related E R (l.foldlM f a) (l.foldlM f' a') := by
  induction l generalizing a a' with
  | nil => exact .ok h
  | cons b l ih =>
    refine (hf b List.mem_cons_self a a' h).bind ?_
    exact fun _ _ _ _ hc => ih (fun x hx => hf x (List.mem_cons_of_mem b hx)) hc

theorem foldlM {f : α → β → Except ε α} {f' : α' → β → Except ε' α'}
    (hf : ∀ a a' b, R a a' → Related E R (f a b) (f' a' b)) (l : List β) {a : α} {a' : α'} (h : R a a') :
    Related E R (l.foldlM f a) (l.foldlM f' a') :=
  foldlM_of_mem (fun b _ a a' => hf a a' b) h

/-- A run over a list and one over the places in it. -/
theorem foldlM_range {f : α → β → Except ε α} {f' : α' → Nat → Except ε' α'} {l : List β}
    (hf : ∀ i b, l[i]? = some b → ∀ a a', R a a' → Related E R (f a b) (f' a' i)) {a : α} {a' : α'} (h : R a a') :
    Related E R (l.foldlM f a) ((List.range l.length).foldlM f' a') := by
  have hleft : (l.zipIdx.map (·.1)).foldlM f a = l.zipIdx.foldlM (fun a entry => f a entry.1) a := List.foldlM_map
  have hright : (l.zipIdx.map (·.2)).foldlM f' a' = l.zipIdx.foldlM (fun a' entry => f' a' entry.2) a' :=
    List.foldlM_map
  rw [List.zipIdx_map_fst] at hleft
  rw [List.zipIdx_map_snd, ← List.range_eq_range'] at hright
  rw [hleft, hright]
  refine foldlM_of_mem ?_ h
  intro entry hentry
  exact hf entry.2 entry.1 (List.mem_zipIdx_iff_getElem?.mp hentry)

theorem of_mapError {x : Except ε α} {g : ε → ε'} (hg : ∀ e, E e (g e)) :
    Related E Eq x (x.mapError g) := by
  cases x with
  | ok a => exact .ok rfl
  | error e => exact .error (hg e)

theorem map_eq {x' : Except ε α'} {f : α → β} {f' : α' → β} (h : Related Eq R x x')
    (hf : ∀ a a', R a a' → f a = f' a') : x.map f = x'.map f' := by
  cases h with
  | ok h => exact congrArg Except.ok (hf _ _ h)
  | error h => exact congrArg Except.error h

end Related

end TextTemplate.Outcome
