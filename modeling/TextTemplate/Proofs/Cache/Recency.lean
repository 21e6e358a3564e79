import TextTemplate.Proofs.Bindings
import TextTemplate.Proofs.Cache.History

namespace TextTemplate.Cache

open Bindings (erase_of_not_mem erase_cons_self erase_cons_of_ne mem_keys_of_lookup lookup_eq_some_iff_mem)

variable {α : Type}

theorem take_erase_take (key : String) (n : Nat) {bs : List (String × α)}
    (h : (bs.map (·.1)).Nodup) :
    (Bindings.erase key (bs.take (n + 1))).take n = (Bindings.erase key bs).take n := by
  induction bs generalizing n with
  | nil => rfl
  | cons entry rest ih =>
    obtain ⟨k, a⟩ := entry
    rw [List.map_cons, List.nodup_cons] at h
    rw [List.take_succ_cons]
    by_cases hk : k = key
    · subst hk
      have htake : k ∉ (rest.take n).map (·.1) := by
        rw [List.map_take]
        exact fun hm => h.1 (List.mem_of_mem_take hm)
      rw [erase_cons_self, erase_cons_self, erase_of_not_mem h.1, erase_of_not_mem htake,
        List.take_take, Nat.min_self]
    · rw [erase_cons_of_ne hk, erase_cons_of_ne hk]
      cases n with
      | zero => rfl
      | succ n => rw [List.take_succ_cons, List.take_succ_cons, ih n h.2]

/-- If the entries are the recent end of a list without repetition, an insertion makes them the recent end of
that list with the key moved to its front. -/
theorem entries_insert {c : Cache α} {bs : List (String × α)} (key : String) (a : α)
    (hbs : (bs.map (·.1)).Nodup) (hc : c.entries = (bs.take c.capacity).reverse) :
    (c.insert key a).entries = (((key, a) :: Bindings.erase key bs).take c.capacity).reverse := by
  have htouch : (c.touch key a).entries =
      ((key, a) :: Bindings.erase key (bs.take c.capacity)).reverse := by
    rw [touch, hc, List.reverse_cons]
    exact congrArg (· ++ [(key, a)]) List.filter_reverse
  have htrim : (c.insert key a).entries =
      (((key, a) :: Bindings.erase key (bs.take c.capacity)).take c.capacity).reverse := by
    change (c.touch key a).entries.drop ((c.touch key a).entries.length - c.capacity) = _
    rw [htouch, List.drop_reverse, List.length_reverse]
    congr 1
    rw [List.take_eq_take_iff]
    omega
  rw [htrim]
  cases c.capacity with
  | zero => rfl
  | succ n => rw [List.take_succ_cons, List.take_succ_cons, take_erase_take key n hbs]

theorem size_touch_le_of_mem {c : Cache α} {key : String} (a : α) (h : key ∈ c.entries.map (·.1)) :
    (c.touch key a).size ≤ c.size := by
  have herase : (Bindings.erase key c.entries).length < c.entries.length := by
    obtain ⟨entry, hentry, rfl⟩ := List.mem_map.mp h
    exact List.length_filter_lt_length_iff_exists.mpr ⟨entry, hentry, by simp⟩
  rw [size, size, touch, List.length_append, List.length_singleton]
  exact herase

theorem trim_of_size_le {c : Cache α} (h : c.size ≤ c.capacity) : c.trim = c := by
  rw [trim, Nat.sub_eq_zero_of_le h, List.drop_zero]

/-- A fetch that hits stores anew what it found. -/
theorem fetch_of_hit {c : Cache α} {key : String} {a : α} (hsize : c.size ≤ c.capacity)
    (h : c.entries.lookup key = some a) : c.fetch key = (some a, c.insert key a) := by
  have hle : (c.touch key a).size ≤ (c.touch key a).capacity :=
    (size_touch_le_of_mem a (mem_keys_of_lookup h)).trans hsize
  rw [fetch, h, insert, trim_of_size_le hle]

theorem fetch_of_miss {c : Cache α} {key : String} (h : c.entries.lookup key = none) :
    c.fetch key = (none, c) := by
  rw [fetch, h]

/-- An entry is among the first `n` exactly if fewer than `n` keys stand in front of its key. -/
theorem mem_take_iff {key : String} {a : α} (n : Nat) {bs : List (String × α)}
    (hn : (bs.map (·.1)).Nodup) :
    (key, a) ∈ bs.take n ↔
      (key, a) ∈ bs ∧ ((bs.map (·.1)).takeWhile (· ≠ key)).length < n := by
  induction bs generalizing n with
  | nil => simp
  | cons entry rest ih =>
    obtain ⟨k, b⟩ := entry
    rw [List.map_cons, List.nodup_cons] at hn
    cases n with
    | zero => simp
    | succ n =>
      rw [List.take_succ_cons, List.mem_cons, List.mem_cons, ih n hn.2, List.map_cons]
      by_cases hk : k = key
      · subst hk
        have hrest : (k, a) ∉ rest := fun hm => hn.1 (List.mem_map_of_mem (f := (·.1)) hm)
        simp [hrest]
      · simp [hk, Ne.symm hk]

/-- An insertion brings in its own entry only. -/
theorem mem_insert {c : Cache α} {key : String} {a : α} {entry : String × α}
    (h : entry ∈ (c.insert key a).entries) : entry = (key, a) ∨ entry ∈ c.entries := by
  have htouch : entry ∈ Bindings.erase key c.entries ++ [(key, a)] := List.mem_of_mem_drop h
  rcases List.mem_append.mp htouch with hold | hnew
  · exact .inr (List.mem_of_mem_filter hold)
  · exact .inl (List.mem_singleton.mp hnew)

/-- The entries are the recent end of what a cache without bound would hold, and that holds under each key what
was stored there last. -/
structure Journal.Tracks (capacity : Nat) (j : Journal α) : Prop where
  capacity_eq : j.cache.capacity = capacity
  entries_eq : j.cache.entries = ((recent j.past).take capacity).reverse
  lookup_recent : ∀ key, (recent j.past).lookup key = lastStored? key j.past

namespace Journal.Tracks

variable {capacity : Nat} {j : Journal α}

theorem nodup_keys (h : j.Tracks capacity) : (j.cache.entries.map (·.1)).Nodup := by
  rw [h.entries_eq, List.map_reverse, List.nodup_reverse, List.map_take]
  exact (nodup_recentKeys j.past).sublist (List.take_sublist _ _)

theorem size_le (h : j.Tracks capacity) : j.cache.size ≤ capacity := by
  rw [size, h.entries_eq, List.length_reverse]
  exact List.length_take_le _ _

/-- A lookup among the entries finds what was stored last or nothing, by how far back the key stands. -/
theorem lookup_entries (h : j.Tracks capacity) (key : String) :
    j.cache.entries.lookup key =
      if othersUsed key j.past < capacity then lastStored? key j.past else none := by
  have hentries (a : α) : j.cache.entries.lookup key = some a ↔
      (recent j.past).lookup key = some a ∧
        ((recentKeys j.past).takeWhile (· ≠ key)).length < capacity := by
    rw [lookup_eq_some_iff_mem h.nodup_keys, lookup_eq_some_iff_mem (nodup_recentKeys j.past),
      h.entries_eq, List.mem_reverse, mem_take_iff capacity (nodup_recentKeys j.past)]
    rfl
  apply Option.ext
  intro a
  rw [hentries, h.lookup_recent]
  by_cases hstored : lastStored? key j.past = some a
  · have hmem : key ∈ recentKeys j.past := by
      rw [← h.lookup_recent] at hstored
      exact mem_keys_of_lookup hstored
    have hcount : ((recentKeys j.past).takeWhile (· ≠ key)).length = othersUsed key j.past := by
      rw [othersUsed, ← toFinset_takeWhile_recentKeys hmem]
      exact (List.toFinset_card_of_nodup
        ((nodup_recentKeys j.past).sublist (List.takeWhile_sublist _))).symm
    rw [hcount]
    by_cases hlt : othersUsed key j.past < capacity <;> simp [hstored, hlt]
  · by_cases hlt : othersUsed key j.past < capacity <;> simp [hstored, hlt]

theorem start (capacity : Nat) : (Journal.start capacity : Journal α).Tracks capacity :=
  ⟨rfl, by simp [Journal.start, ofCapacity, recent], fun _ => rfl⟩

/-- After a use of `key` that leaves `a` there. -/
theorem lookup_recent_used {past : List (Event α)}
    (h : ∀ other, (recent past).lookup other = lastStored? other past) (key other : String) (a : α) :
    List.lookup other ((key, a) :: Bindings.erase key (recent past)) =
      if other = key then some a else lastStored? other past := by
  rw [Bindings.lookup_cons, Bindings.lookup_erase, h]
  by_cases ho : other = key <;> simp [ho]

theorem step (h : j.Tracks capacity) (op : Operation α) : (j.step op).Tracks capacity := by
  obtain ⟨hcap, hentries, hlookup⟩ := id h
  have hinsert (key : String) (a : α) : (j.cache.insert key a).entries =
      (((key, a) :: Bindings.erase key (recent j.past)).take capacity).reverse := by
    rw [entries_insert key a (nodup_recentKeys j.past) (by rw [hcap, hentries]), hcap]
  cases op with
  | insert key a =>
    refine ⟨hcap, hinsert key a, ?_⟩
    intro other
    change List.lookup other ((key, a) :: Bindings.erase key (recent j.past)) =
      if key = other then some a else lastStored? other j.past
    rw [lookup_recent_used hlookup]
    simp only [eq_comm]
  | fetch key =>
    cases hfound : j.cache.entries.lookup key with
    | none =>
      have hstep : j.step (.fetch key) = ⟨j.cache, .missed key :: j.past⟩ := by
        rw [Journal.step, fetch_of_miss hfound]
      rw [hstep]
      exact ⟨hcap, hentries, hlookup⟩
    | some a =>
      have hstep : j.step (.fetch key) = ⟨j.cache.insert key a, .hit key a :: j.past⟩ := by
        rw [Journal.step, fetch_of_hit (hcap ▸ h.size_le) hfound]
      rw [hstep]
      refine ⟨hcap, hinsert key a, ?_⟩
      intro other
      change List.lookup other ((key, a) :: Bindings.erase key (recent j.past)) =
        lastStored? other j.past
      rw [lookup_recent_used hlookup]
      by_cases ho : other = key
      · -- A hit finds what was stored last, so nothing changes.
        have hlast := h.lookup_entries key
        rw [hfound] at hlast
        subst ho
        by_cases hlt : othersUsed other j.past < capacity
        · rw [if_pos hlt] at hlast
          rw [if_pos rfl, hlast]
        · rw [if_neg hlt] at hlast
          exact absurd hlast (by simp)
      · rw [if_neg ho]
  | clear => exact ⟨hcap, by simp [Journal.step, clear, ofCapacity, recent], fun _ => rfl⟩

theorem run (capacity : Nat) (ops : List (Operation α)) : (Journal.run capacity ops).Tracks capacity :=
  Journal.run_induction (start capacity) (fun _ op h => h.step op) ops

theorem pairwise_entries (h : j.Tracks capacity) :
    j.cache.entries.Pairwise fun older newer =>
      (usedKeys j.past).idxOf newer.1 < (usedKeys j.past).idxOf older.1 := by
  rw [h.entries_eq, List.pairwise_reverse]
  exact (List.pairwise_map.mp (pairwise_recentKeys j.past)).sublist (List.take_sublist _ _)

end Journal.Tracks

/-- After every run a fetch finds what was stored last under its key since the last clearing, unless as many other
keys as the capacity allows were used since that key was. -/
theorem exact_recency (capacity : Nat) (ops : List (Operation α)) :
    let j := Journal.run capacity ops
    (∀ key, (j.cache.fetch key).1 =
      if othersUsed key j.past < capacity then lastStored? key j.past else none) ∧
    (j.cache.entries.map (·.1)).Nodup ∧
    j.cache.size ≤ capacity ∧
    (j.cache.entries.Pairwise fun older newer =>
      (usedKeys j.past).idxOf newer.1 < (usedKeys j.past).idxOf older.1) ∧
    (Journal.run 0 ops).cache.entries = [] := by
  intro j
  have h : j.Tracks capacity := Journal.Tracks.run capacity ops
  refine ⟨?_, h.nodup_keys, h.size_le, h.pairwise_entries, ?_⟩
  · intro key
    rw [fst_fetch]
    exact h.lookup_entries key
  · have hzero := (Journal.Tracks.run 0 ops).size_le
    exact List.eq_nil_of_length_eq_zero (Nat.le_zero.mp hzero)

/-- A fetch counts as a use, so the key that was not asked for is forgotten first. -/
example : ((Journal.run 2 [.insert "a" 1, .insert "b" 2, .fetch "a", .insert "c" 3]).cache.fetch "b").1 =
    none := by decide

end TextTemplate.Cache
