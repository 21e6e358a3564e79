import Mathlib.Data.Finset.Card
import Mathlib.Data.List.Nodup
import TextTemplate.Cache

namespace TextTemplate.Cache

variable {α : Type}

inductive Operation (α : Type) where
  | insert (key : String) (a : α)
  | fetch (key : String)
  | clear

/-- What came of an operation. A fetch hits or misses. -/
inductive Event (α : Type) where
  | stored (key : String) (a : α)
  | hit (key : String) (a : α)
  | missed (key : String)
  | cleared

/-- The key that an event uses. A miss uses none. -/
def Event.used? : Event α → Option String
  | stored key _ | hit key _ => some key
  | missed _ | cleared => none

/-- A cache and the events that led to it, the latest first. The events are told without looking at the entries. -/
structure Journal (α : Type) where
  cache : Cache α
  past : List (Event α)

namespace Journal

def start (capacity : Nat) : Journal α := ⟨ofCapacity capacity, []⟩

def step (j : Journal α) : Operation α → Journal α
  | .insert key a => ⟨j.cache.insert key a, .stored key a :: j.past⟩
  | .fetch key =>
    match j.cache.fetch key with
    | (some a, c) => ⟨c, .hit key a :: j.past⟩
    | (none, c) => ⟨c, .missed key :: j.past⟩
  | .clear => ⟨j.cache.clear, .cleared :: j.past⟩

def run (capacity : Nat) (ops : List (Operation α)) : Journal α :=
  ops.foldl step (start capacity)

/-- What holds of an empty cache and is kept by every operation holds after every run. -/
theorem run_induction {P : Journal α → Prop} {capacity : Nat} (hstart : P (start capacity))
    (hstep : ∀ j op, P j → P (j.step op)) (ops : List (Operation α)) : P (run capacity ops) := by
  suffices h : ∀ j : Journal α, P j → P (ops.foldl step j) from h _ hstart
  induction ops with
  | nil => exact fun j hj => hj
  | cons op ops ih => exact fun j hj => ih (j.step op) (hstep j op hj)

end Journal

/-- The keys in the order of their uses, the latest first; a key stands there once for every use. -/
def usedKeys (past : List (Event α)) : List String :=
  past.filterMap Event.used?

/-- How many different keys were used since the last use of `key`. -/
def othersUsed (key : String) (past : List (Event α)) : Nat :=
  ((usedKeys past).takeWhile (· ≠ key)).toFinset.card

/-- What was stored last under `key` since the last clearing. -/
def lastStored? (key : String) : List (Event α) → Option α
  | [] | .cleared :: _ => none
  | .stored k a :: past => if k = key then some a else lastStored? key past
  | .hit _ _ :: past | .missed _ :: past => lastStored? key past

/-- What a cache without bound would hold, the latest use first. -/
def recent : List (Event α) → List (String × α)
  | [] | .cleared :: _ => []
  | .stored key a :: past | .hit key a :: past => (key, a) :: Bindings.erase key (recent past)
  | .missed _ :: past => recent past

def recentKeys (past : List (Event α)) : List String :=
  (recent past).map (·.1)

theorem names_erase (key : String) (bs : List (String × α)) :
    (Bindings.erase key bs).map (·.1) = (bs.map (·.1)).filter (· ≠ key) := by
  induction bs with
  | nil => rfl
  | cons entry rest ih =>
    obtain ⟨k, a⟩ := entry
    by_cases h : k = key
    · simpa [Bindings.erase, h] using ih
    · simpa [Bindings.erase, h] using ih

@[simp] theorem recentKeys_nil : recentKeys ([] : List (Event α)) = [] := rfl

@[simp] theorem recentKeys_cleared (past : List (Event α)) : recentKeys (.cleared :: past) = [] := rfl

@[simp] theorem recentKeys_missed (key : String) (past : List (Event α)) :
    recentKeys (.missed key :: past) = recentKeys past := rfl

@[simp] theorem recentKeys_stored (key : String) (a : α) (past : List (Event α)) :
    recentKeys (.stored key a :: past) = key :: (recentKeys past).filter (· ≠ key) := by
  rw [recentKeys, recent, List.map_cons, names_erase]
  rfl

@[simp] theorem recentKeys_hit (key : String) (a : α) (past : List (Event α)) :
    recentKeys (.hit key a :: past) = key :: (recentKeys past).filter (· ≠ key) :=
  recentKeys_stored key a past

theorem nodup_recentKeys (past : List (Event α)) : (recentKeys past).Nodup := by
  induction past with
  | nil => exact List.nodup_nil
  | cons e past ih =>
    cases e with
    | stored key a =>
      rw [recentKeys_stored, List.nodup_cons]
      exact ⟨by simp, ih.filter _⟩
    | hit key a =>
      rw [recentKeys_hit, List.nodup_cons]
      exact ⟨by simp, ih.filter _⟩
    | missed key => exact ih
    | cleared => exact List.nodup_nil

/-- A use puts the key in front and keeps the order of the others. -/
theorem pairwise_cons_used (key : String) {keys used : List String}
    (h : keys.Pairwise fun later earlier => used.idxOf later < used.idxOf earlier) :
    (key :: keys.filter (· ≠ key)).Pairwise fun later earlier =>
      (key :: used).idxOf later < (key :: used).idxOf earlier := by
  have shift {other : String} (ho : other ∈ keys.filter (· ≠ key)) :
      (key :: used).idxOf other = used.idxOf other + 1 := by
    have hne : other ≠ key := by simpa using (List.mem_filter.mp ho).2
    exact List.idxOf_cons_ne used hne.symm
  rw [List.pairwise_cons]
  constructor
  · intro other ho
    rw [List.idxOf_cons_self, shift ho]
    exact Nat.succ_pos _
  · refine (h.filter _).imp_of_mem ?_
    intro later earlier hl he hlt
    rw [shift hl, shift he]
    exact Nat.succ_lt_succ hlt

/-- Of two keys the one used later stands in front. -/
theorem pairwise_recentKeys (past : List (Event α)) :
    (recentKeys past).Pairwise fun later earlier =>
      (usedKeys past).idxOf later < (usedKeys past).idxOf earlier := by
  induction past with
  | nil => exact List.Pairwise.nil
  | cons e past ih =>
    cases e with
    | stored key a =>
      rw [recentKeys_stored]
      exact pairwise_cons_used key ih
    | hit key a =>
      rw [recentKeys_hit]
      exact pairwise_cons_used key ih
    | missed key => exact ih
    | cleared => exact List.Pairwise.nil

theorem takeWhile_filter_ne {k key : String} (h : k ≠ key) (keys : List String) :
    (keys.filter (· ≠ k)).takeWhile (· ≠ key) = (keys.takeWhile (· ≠ key)).filter (· ≠ k) := by
  rw [List.takeWhile_filter]
  congr 2
  funext x
  by_cases hx : x = k
  · simp [hx, h]
  · simp [hx]

/-- What stands in front of `key` after a use of `k` is what was used since the last use of `key`. -/
theorem toFinset_takeWhile_cons_used {k key : String} {keys used : List String}
    (hmem : key ∈ k :: keys.filter (· ≠ k))
    (h : key ∈ keys → (keys.takeWhile (· ≠ key)).toFinset = (used.takeWhile (· ≠ key)).toFinset) :
    ((k :: keys.filter (· ≠ k)).takeWhile (· ≠ key)).toFinset =
      ((k :: used).takeWhile (· ≠ key)).toFinset := by
  by_cases hk : k = key
  · simp [hk]
  · have hkeys : key ∈ keys := by
      rcases List.mem_cons.mp hmem with rfl | hf
      · exact absurd rfl hk
      · exact (List.mem_filter.mp hf).1
    rw [List.takeWhile_cons_of_pos (by simpa using hk), List.takeWhile_cons_of_pos (by simpa using hk),
      takeWhile_filter_ne hk, List.toFinset_cons, List.toFinset_cons, List.toFinset_filter, h hkeys]
    ext x
    by_cases hx : x = k <;> simp [hx]

/-- In front of a key stand exactly the keys that were used since its last use. -/
theorem toFinset_takeWhile_recentKeys {key : String} {past : List (Event α)}
    (h : key ∈ recentKeys past) :
    ((recentKeys past).takeWhile (· ≠ key)).toFinset =
      ((usedKeys past).takeWhile (· ≠ key)).toFinset := by
  induction past with
  | nil => simp at h
  | cons e past ih =>
    cases e with
    | stored k a =>
      rw [recentKeys_stored] at h ⊢
      exact toFinset_takeWhile_cons_used h ih
    | hit k a =>
      rw [recentKeys_hit] at h ⊢
      exact toFinset_takeWhile_cons_used h ih
    | missed k => exact ih h
    | cleared => simp at h

end TextTemplate.Cache
