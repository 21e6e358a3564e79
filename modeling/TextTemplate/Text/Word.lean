import TextTemplate.Text.WordTable

namespace TextTemplate.Text

/-- Some range, both ends included, holds `n`. -/
def inRanges (ranges : List (Nat × Nat)) (n : Nat) : Bool :=
  ranges.any fun (first, last) => first ≤ n && n ≤ last

/-- A name begins with an ASCII letter or an underscore. -/
def startsName (c : Char) : Bool :=
  c.isAlpha || c == '_'

/-- A name goes on with letters, numbers and underscores of any script. -/
def continuesName (c : Char) : Bool :=
  c.isAlphanum || c == '_' || (128 ≤ c.toNat && inRanges Word.ranges c.toNat)

theorem continuesName_of_startsName (c : Char) (h : startsName c = true) :
    continuesName c = true := by
  simp only [startsName, continuesName, Char.isAlphanum, Bool.or_eq_true] at *
  rcases h with h | h <;> simp [h]

end TextTemplate.Text
