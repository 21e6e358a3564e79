import Mathlib.Data.List.Perm.Basic
import TextTemplate.Bindings

namespace TextTemplate.Bindings

variable {α : Type}

theorem erase_of_not_mem {key : String} {bs : List (String × α)} (h : key ∉ bs.map (·.1)) :
    erase key bs = bs := by
  refine List.filter_eq_self.mpr ?_
  intro entry hentry
  have hne : entry.1 ≠ key := by
    rintro rfl
    exact h (List.mem_map_of_mem hentry)
  simpa using hne

theorem erase_cons_self (key : String) (a : α) (bs : List (String × α)) :
    erase key ((key, a) :: bs) = erase key bs := by
  simp [erase]

theorem erase_cons_of_ne {k key : String} (h : k ≠ key) (a : α) (bs : List (String × α)) :
    erase key ((k, a) :: bs) = (k, a) :: erase key bs := by
  simp [erase, h]

theorem mem_of_lookup {key : String} {a : α} {bs : List (String × α)} (h : bs.lookup key = some a) :
    (key, a) ∈ bs := by
  obtain ⟨l₁, l₂, hl, -⟩ := List.lookup_eq_some_iff.mp h
  simp [hl]

theorem mem_keys_of_lookup {key : String} {a : α} {bs : List (String × α)}
    (h : bs.lookup key = some a) : key ∈ bs.map (·.1) :=
  List.mem_map_of_mem (mem_of_lookup h)

/-- Where no key is repeated, an entry is found exactly if it is there. -/
theorem lookup_eq_some_iff_mem {key : String} {a : α} {bs : List (String × α)}
    (hn : (bs.map (·.1)).Nodup) : bs.lookup key = some a ↔ (key, a) ∈ bs := by
  induction bs with
  | nil => simp
  | cons entry rest ih =>
    obtain ⟨k, b⟩ := entry
    rw [List.map_cons, List.nodup_cons] at hn
    rw [lookup_cons, List.mem_cons, Prod.mk.injEq]
    by_cases hk : key = k
    · subst hk
      have hrest : (key, a) ∉ rest := fun hm => hn.1 (List.mem_map_of_mem (f := (·.1)) hm)
      simp [hrest, eq_comm]
    · simp [hk, ih hn.2]

theorem lookup_eq_of_perm {bs cs : List (String × α)} (hn : (bs.map (·.1)).Nodup) (h : bs.Perm cs)
    (key : String) : bs.lookup key = cs.lookup key := by
  have hn' : (cs.map (·.1)).Nodup := (h.map _).nodup_iff.mp hn
  apply Option.ext
  intro a
  rw [lookup_eq_some_iff_mem hn, lookup_eq_some_iff_mem hn', h.mem_iff]

end TextTemplate.Bindings
