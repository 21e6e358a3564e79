import TextTemplate.Text.Blank

namespace TextTemplate.Text

variable {c : Char} {run rest front cs back : List Char}

theorem isBlank_eq_false_of_isDigit (h : c.isDigit = true) : isBlank c = false := by
  have hrange : 48 ≤ c.toNat ∧ c.toNat ≤ 57 := by
    simp only [Char.isDigit, Bool.and_eq_true, decide_eq_true_eq, ge_iff_le, UInt32.le_iff_toNat_le] at h
    exact h
  simp only [isBlank, Bool.or_eq_false_iff, Bool.and_eq_false_iff, decide_eq_false_iff_not, beq_eq_false_iff_ne]
  omega

theorem isDigit_eq_false_of_isBlank (h : isBlank c = true) : c.isDigit = false := by
  cases hdigit : c.isDigit with
  | false => rfl
  | true =>
    rw [isBlank_eq_false_of_isDigit hdigit] at h
    cases h

/-- A run of characters ends where one of another kind stands. -/
theorem run_append {p : Char → Bool} (hrun : ∀ c ∈ run, p c = true) (hrest : ∀ c ∈ rest.head?, p c = false) :
    (run ++ rest).takeWhile p = run ∧ (run ++ rest).dropWhile p = rest := by
  rw [List.takeWhile_append_of_pos hrun, List.dropWhile_append_of_pos hrun]
  cases rest with
  | nil => exact ⟨List.append_nil run, rfl⟩
  | cons c rest =>
    have hc : ¬ p c = true := Bool.eq_false_iff.mp (hrest c rfl)
    rw [List.takeWhile_cons_of_neg hc, List.dropWhile_cons_of_neg hc]
    exact ⟨List.append_nil run, rfl⟩

theorem trimStart_append (hfront : ∀ c ∈ front, isBlank c = true) (hcs : ∀ c ∈ cs.head?, isBlank c = false) :
    trimStart (front ++ cs) = cs :=
  (run_append hfront hcs).2

/-- A text without white space at its ends is what is left of it with white space around. -/
theorem trim_append (hfront : ∀ c ∈ front, isBlank c = true) (hback : ∀ c ∈ back, isBlank c = true)
    (hhead : ∀ c ∈ cs.head?, isBlank c = false) (hlast : ∀ c ∈ cs.getLast?, isBlank c = false) :
    trim (front ++ cs ++ back) = cs := by
  have hback' : ∀ c ∈ back.reverse, isBlank c = true := fun c hc => hback c (List.mem_reverse.mp hc)
  cases cs with
  | nil =>
    have hall : ∀ c ∈ front ++ back, isBlank c = true :=
      fun c hc => (List.mem_append.mp hc).elim (hfront c) (hback c)
    have hnone : trimStart (front ++ back) = [] := by
      rw [← List.append_nil (front ++ back)]
      exact trimStart_append hall hhead
    rw [trim, List.append_nil, hnone]
    rfl
  | cons c cs =>
    have hstart : trimStart (front ++ (c :: cs ++ back)) = c :: cs ++ back := trimStart_append hfront hhead
    have hend : trimStart (back.reverse ++ (c :: cs).reverse) = (c :: cs).reverse := by
      apply trimStart_append hback'
      rwa [List.head?_reverse]
    rw [trim, List.append_assoc, hstart, List.reverse_append, hend, List.reverse_reverse]

theorem exists_eq_trim (cs : List Char) :
    ∃ front back, cs = front ++ trim cs ++ back ∧ (∀ c ∈ front, isBlank c = true) ∧ ∀ c ∈ back, isBlank c = true := by
  refine ⟨cs.takeWhile isBlank, ((trimStart cs).reverse.takeWhile isBlank).reverse, ?_, ?_, ?_⟩
  · have hend : (trimStart cs).reverse.takeWhile isBlank ++ trimStart (trimStart cs).reverse = (trimStart cs).reverse :=
      List.takeWhile_append_dropWhile
    rw [trim, List.append_assoc, ← List.reverse_append, hend, List.reverse_reverse]
    exact List.takeWhile_append_dropWhile.symm
  · exact fun c hc => List.all_eq_true.mp List.all_takeWhile c hc
  · intro c hc
    exact List.all_eq_true.mp List.all_takeWhile c (List.mem_reverse.mp hc)

end TextTemplate.Text
