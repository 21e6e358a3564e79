import TextTemplate.Bindings

namespace TextTemplate

/-- A cache of bounded size that forgets what was not used for the longest time. The entries stand in the order of
their last use, the oldest first. -/
structure Cache (α : Type) where
  capacity : Nat
  entries : List (String × α)

namespace Cache

variable {α : Type}

def ofCapacity (capacity : Nat) : Cache α := ⟨capacity, []⟩

def size (c : Cache α) : Nat :=
  c.entries.length

/-- An entry becomes the one that was used last. -/
def touch (c : Cache α) (key : String) (a : α) : Cache α :=
  ⟨c.capacity, Bindings.erase key c.entries ++ [(key, a)]⟩

/-- Looks a key up. Only a hit counts as a use. -/
def fetch (c : Cache α) (key : String) : Option α × Cache α :=
  match c.entries.lookup key with
  | some a => (some a, c.touch key a)
  | none => (none, c)

/-- Forgets the oldest entries beyond the capacity. -/
def trim (c : Cache α) : Cache α :=
  ⟨c.capacity, c.entries.drop (c.size - c.capacity)⟩

/-- Stores an entry; one of the same key is replaced. -/
def insert (c : Cache α) (key : String) (a : α) : Cache α :=
  (c.touch key a).trim

def clear (c : Cache α) : Cache α :=
  ofCapacity c.capacity

theorem fst_fetch (c : Cache α) (key : String) : (c.fetch key).1 = c.entries.lookup key := by
  unfold fetch
  cases h : c.entries.lookup key <;> rfl

theorem size_trim_le (c : Cache α) : c.trim.size ≤ c.capacity := by
  simp only [trim, size, List.length_drop]
  omega

theorem size_insert_le (c : Cache α) (key : String) (a : α) :
    (c.insert key a).size ≤ c.capacity :=
  size_trim_le (c.touch key a)

end Cache

end TextTemplate
