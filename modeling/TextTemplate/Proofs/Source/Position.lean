import Mathlib.Data.List.Induction
import Mathlib.Data.String.Basic
import TextTemplate.Source.Place

namespace TextTemplate.Place

theorem after_concat (p : Place) (cs : List Char) (c : Char) : p.after (cs ++ [c]) = (p.after cs).step c := by
  rw [after_append]
  rfl

theorem offset_after (p : Place) (cs : List Char) : (p.after cs).offset = p.offset + String.utf8Len cs := by
  induction cs generalizing p with
  | nil => rfl
  | cons c rest ih =>
    have hstep : (p.step c).offset = p.offset + c.utf8Size := by
      unfold step
      split <;> rfl
    change ((p.step c).after rest).offset = _
    rw [ih, hstep, String.utf8Len_cons]
    omega

/-- Bytes are counted from zero, lines from one. -/
theorem offset_start_after (cs : List Char) : (start.after cs).offset = String.utf8Len cs := by
  rw [offset_after]
  exact Nat.zero_add _

theorem line_start_after (cs : List Char) : (start.after cs).line = 1 + cs.count '\n' := by
  induction cs using List.reverseRecOn with
  | nil => rfl
  | append_singleton cs c ih =>
    rw [after_concat, List.count_append, List.count_singleton]
    by_cases h : c = '\n'
    · simp [step, h, ih, Nat.add_assoc]
    · simp [step, h, ih]

theorem column_start_after (cs : List Char) :
    (start.after cs).column = 1 + (cs.reverse.takeWhile (· ≠ '\n')).length := by
  induction cs using List.reverseRecOn with
  | nil => rfl
  | append_singleton cs c ih =>
    rw [after_concat, List.reverse_concat]
    by_cases h : c = '\n'
    · simp [step, h]
    · simp [step, h, ih, Nat.add_assoc]

/-- Before a byte of the source or at its end, with the line feeds in front of it and the characters behind the last
of them counted in the source itself. -/
def TrueIn (source : String) (p : Place) : Prop :=
  ∃ front back, source.toList = front ++ back ∧ p.offset = String.utf8Len front ∧
    p.line = 1 + front.count '\n' ∧ p.column = 1 + (front.reverse.takeWhile (· ≠ '\n')).length

theorem trueIn_start_after {source : String} {front back : List Char} (h : source.toList = front ++ back) :
    (start.after front).TrueIn source :=
  ⟨front, back, h, offset_start_after front, line_start_after front, column_start_after front⟩

/-- A byte in front of a character leads to the place behind the characters before it. -/
theorem within_append (p : Place) (before behind : List Char) :
    p.within (before ++ behind) (String.utf8Len before) = p.after before := by
  induction before generalizing p with
  | nil => cases behind <;> rfl
  | cons c rest ih =>
    have hc := c.utf8Size_pos
    rw [List.cons_append, within, String.utf8Len_cons, if_neg (by omega), Nat.add_sub_cancel, ih]
    rfl

end TextTemplate.Place
