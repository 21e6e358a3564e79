namespace TextTemplate.Bindings

variable {α : Type}

/-- Binds `name`: in place if it is bound already, else at the end. -/
def insert (name : String) (a : α) : List (String × α) → List (String × α)
  | [] => [(name, a)]
  | (key, b) :: rest => if key = name then (name, a) :: rest else (key, b) :: insert name a rest

def erase (name : String) (bs : List (String × α)) : List (String × α) :=
  bs.filter fun entry => entry.1 != name

theorem lookup_cons (name key : String) (a : α) (bs : List (String × α)) :
    List.lookup key ((name, a) :: bs) = if key = name then some a else bs.lookup key := by
  by_cases h : key = name
  · simp [h]
  · have : (key == name) = false := by simpa using h
    simp [List.lookup_cons, h, this]

theorem lookup_insert (name key : String) (a : α) (bs : List (String × α)) :
    (insert name a bs).lookup key = if key = name then some a else bs.lookup key := by
  induction bs with
  | nil => simp [insert, lookup_cons]
  | cons entry rest ih =>
    obtain ⟨k, b⟩ := entry
    by_cases hk : k = name
    · subst hk
      by_cases h : key = k <;> simp [insert, lookup_cons, h]
    · by_cases h : key = k
      · simp [insert, hk, h]
      · simp [insert, hk, lookup_cons, h, ih]

theorem lookup_erase (name key : String) (bs : List (String × α)) :
    (erase name bs).lookup key = if key = name then none else bs.lookup key := by
  induction bs with
  | nil => simp [erase]
  | cons entry rest ih =>
    obtain ⟨k, b⟩ := entry
    by_cases hk : k = name
    · have hcons : erase name ((k, b) :: rest) = erase name rest := by simp [erase, hk]
      rw [hcons, ih]
      by_cases h : key = name
      · simp [h]
      · rw [if_neg h, if_neg h, lookup_cons, if_neg (by rw [hk]; exact h)]
    · have hcons : erase name ((k, b) :: rest) = (k, b) :: erase name rest := by simp [erase, hk]
      by_cases h : key = k
      · simp [hcons, h, hk]
      · simp [hcons, lookup_cons, h, ih]

/-- A new name comes last, a bound one keeps its place. -/
theorem names_insert (name : String) (a : α) (bs : List (String × α)) :
    (insert name a bs).map (·.1) =
      if name ∈ bs.map (·.1) then bs.map (·.1) else bs.map (·.1) ++ [name] := by
  induction bs with
  | nil => simp [insert]
  | cons entry rest ih =>
    obtain ⟨k, b⟩ := entry
    by_cases hk : k = name
    · simp [insert, hk]
    · rw [insert, if_neg hk, List.map_cons, ih]
      have hne : name ≠ k := fun h => hk h.symm
      by_cases h : name ∈ rest.map (·.1) <;> simp_all

theorem nodup_names_insert (name : String) (a : α) {bs : List (String × α)}
    (h : (bs.map (·.1)).Nodup) : ((insert name a bs).map (·.1)).Nodup := by
  rw [names_insert]
  by_cases hm : name ∈ bs.map (·.1)
  · rw [if_pos hm]
    exact h
  · rw [if_neg hm, List.nodup_append]
    exact ⟨h, by simp, fun x hx y hy => by simp at hy; subst hy; exact fun he => hm (he ▸ hx)⟩

end TextTemplate.Bindings
