import TextTemplate.Proofs.Engine.Transparency

namespace TextTemplate

namespace Cache

variable {α β : Type} {c small large : Cache α} {key : String}

/-- A use makes room for one more entry, unless its key has one already. -/
theorem size_touch (hn : (c.entries.map (·.1)).Nodup) (key : String) (a : α) :
    (c.touch key a).size = if key ∈ c.entries.map (·.1) then c.size else c.size + 1 := by
  have herase : (Bindings.erase key c.entries).length = ((c.entries.map (·.1)).erase key).length := by
    rw [hn.erase_eq_filter, List.filter_map, List.length_map]
    rfl
  rw [size, touch, List.length_append, herase, List.length_erase, List.length_map, List.length_singleton]
  split
  case isTrue hmem =>
    have hpos : 0 < (c.entries.map (·.1)).length := List.length_pos_of_mem hmem
    rw [List.length_map] at hpos
    exact Nat.sub_add_cancel hpos
  case isFalse hmem => rfl

theorem nodup_keys_insert (hn : (c.entries.map (·.1)).Nodup) (key : String) (a : α) :
    ((c.insert key a).entries.map (·.1)).Nodup := by
  have htouch : ((c.touch key a).entries.map (·.1)).Nodup := by
    rw [touch, List.map_append, names_erase, List.map_singleton, List.nodup_append]
    refine ⟨hn.filter _, List.nodup_singleton _, ?_⟩
    intro k hk k' hk'
    rw [List.mem_singleton.mp hk']
    simpa using (List.mem_filter.mp hk).2
  exact htouch.sublist ((List.drop_sublist _ _).map _)

/-- What the smaller cache holds stands in the larger one as well, in the same order. As long as the smaller one is not
full, it lacks nothing. -/
structure Within (small large : Cache α) : Prop where
  capacity_le : small.capacity ≤ large.capacity
  small_size_le : small.size ≤ small.capacity
  large_size_le : large.size ≤ large.capacity
  nodup_keys : (large.entries.map (·.1)).Nodup
  sublist : small.entries.Sublist large.entries
  eq_of_room : small.size < small.capacity → small.entries = large.entries

namespace Within

theorem empty {capacity capacity' : Nat} (h : capacity ≤ capacity') :
    (ofCapacity capacity : Cache α).Within (ofCapacity capacity') :=
  ⟨h, Nat.zero_le _, Nat.zero_le _, List.nodup_nil, List.Sublist.refl _, fun _ => rfl⟩

theorem nodup_keys_small (h : small.Within large) : (small.entries.map (·.1)).Nodup :=
  h.nodup_keys.sublist (h.sublist.map _)

theorem lookup (h : small.Within large) {a : α} (hfound : small.entries.lookup key = some a) :
    large.entries.lookup key = some a :=
  (Bindings.lookup_eq_some_iff_mem h.nodup_keys).mpr (h.sublist.subset (Bindings.mem_of_lookup hfound))

theorem touch_sublist (h : small.Within large) (key : String) (a : α) :
    (small.touch key a).entries.Sublist (large.touch key a).entries :=
  (h.sublist.filter _).append (List.Sublist.refl _)

theorem touch_eq_of_room (h : small.Within large) (hroom : small.size < small.capacity) (key : String) (a : α) :
    (small.touch key a).entries = (large.touch key a).entries := by
  rw [touch, touch, h.eq_of_room hroom]

/-- The larger cache drops no more than the smaller one, so it drops nothing that the smaller one keeps. -/
theorem insert (h : small.Within large) (key : String) (a : α) :
    (small.insert key a).Within (large.insert key a) := by
  have hsmall := size_touch h.nodup_keys_small key a
  have hlarge := size_touch h.nodup_keys key a
  have hcapacity := h.capacity_le
  have hfits := h.small_size_le
  have hfits' := h.large_size_le
  have hkeys : key ∈ small.entries.map (·.1) → key ∈ large.entries.map (·.1) :=
    fun hmem => (h.sublist.map _).subset hmem
  refine ⟨hcapacity, size_insert_le small key a, size_insert_le large key a, nodup_keys_insert h.nodup_keys key a,
    ?_, ?_⟩
  · have hdrops : (large.touch key a).size - large.capacity ≤ (small.touch key a).size - small.capacity := by
      rcases Nat.lt_or_ge small.size small.capacity with hroom | hfull
      · have hsame : (small.touch key a).size = (large.touch key a).size :=
          congrArg List.length (h.touch_eq_of_room hroom key a)
        omega
      · split at hsmall <;> split at hlarge
        · omega
        · exact absurd (hkeys ‹_›) ‹_›
        · omega
        · omega
    obtain ⟨more, hmore⟩ := Nat.exists_eq_add_of_le hdrops
    change ((small.touch key a).entries.drop ((small.touch key a).size - small.capacity)).Sublist
      ((large.touch key a).entries.drop ((large.touch key a).size - large.capacity))
    rw [hmore, ← List.drop_drop]
    exact (List.drop_sublist _ _).trans ((h.touch_sublist key a).drop _)
  · intro hroom
    -- Nothing was dropped, so the smaller cache was not full before either.
    have hlength : (small.insert key a).size =
        (small.touch key a).size - ((small.touch key a).size - small.capacity) := List.length_drop
    have hcap : (small.insert key a).capacity = small.capacity := rfl
    have hbefore : small.size < small.capacity := by
      split at hsmall <;> omega
    have hsame := h.touch_eq_of_room hbefore key a
    have hsize : (small.touch key a).size = (large.touch key a).size := congrArg List.length hsame
    have hkept : (small.touch key a).size ≤ (small.touch key a).capacity := by
      change _ ≤ small.capacity
      omega
    have hkept' : (large.touch key a).size ≤ (large.touch key a).capacity := by
      change _ ≤ large.capacity
      omega
    rw [Cache.insert, Cache.insert, trim_of_size_le hkept, trim_of_size_le hkept', hsame]

/-- A fetch that only the larger cache can answer moves nothing that the smaller one holds. -/
theorem fetch_of_miss (h : small.Within large) {a : α} (hmiss : small.entries.lookup key = none)
    (hfound : large.entries.lookup key = some a) : small.Within (large.insert key a) := by
  have hmem : key ∈ large.entries.map (·.1) := Bindings.mem_keys_of_lookup hfound
  have hnot : key ∉ small.entries.map (·.1) := by
    intro hsmall
    obtain ⟨entry, hentry, rfl⟩ := List.mem_map.mp hsmall
    rw [(Bindings.lookup_eq_some_iff_mem h.nodup_keys_small).mpr hentry] at hmiss
    cases hmiss
  have hkept : (large.touch key a).size ≤ (large.touch key a).capacity :=
    (size_touch_le_of_mem a hmem).trans h.large_size_le
  refine ⟨h.capacity_le, h.small_size_le, size_insert_le large key a, nodup_keys_insert h.nodup_keys key a, ?_, ?_⟩
  · rw [Cache.insert, trim_of_size_le hkept, touch, ← Bindings.erase_of_not_mem hnot]
    exact (h.sublist.filter _).trans (List.sublist_append_left _ _)
  · intro hroom
    rw [h.eq_of_room hroom, hfound] at hmiss
    cases hmiss

theorem fetch (h : small.Within large) (key : String) : (small.fetch key).2.Within (large.fetch key).2 := by
  cases hsmall : small.entries.lookup key with
  | some a =>
    rw [fetch_of_hit h.small_size_le hsmall, fetch_of_hit h.large_size_le (h.lookup hsmall)]
    exact h.insert key a
  | none =>
    rw [Cache.fetch_of_miss hsmall]
    cases hlarge : large.entries.lookup key with
    | some a =>
      rw [fetch_of_hit h.large_size_le hlarge]
      exact h.fetch_of_miss hsmall hlarge
    | none =>
      rw [Cache.fetch_of_miss hlarge]
      exact h

theorem clear (h : small.Within large) : small.clear.Within large.clear :=
  empty h.capacity_le

theorem fst_fetch (h : small.Within large) {a : α} (hfound : (small.fetch key).1 = some a) :
    (large.fetch key).1 = some a := by
  rw [Cache.fst_fetch] at hfound ⊢
  exact h.lookup hfound

end Within

theorem Journal.cache_step_fetch (j : Journal α) (key : String) :
    (j.step (.fetch key)).cache = (j.cache.fetch key).2 := by
  rw [Journal.step]
  split <;> simp [*]

/-- One operation, asked of both caches. -/
theorem Within.step {j j' : Journal α} (h : j.cache.Within j'.cache) (op : Operation α) :
    (j.step op).cache.Within (j'.step op).cache := by
  cases op with
  | insert key a => exact h.insert key a
  | fetch key =>
    rw [Journal.cache_step_fetch, Journal.cache_step_fetch]
    exact h.fetch key
  | clear => exact h.clear

theorem Within.run {capacity capacity' : Nat} (h : capacity ≤ capacity') (ops : List (Operation α)) :
    (Journal.run capacity ops).cache.Within (Journal.run capacity' ops).cache := by
  suffices hfrom : ∀ j j' : Journal α, j.cache.Within j'.cache →
      (ops.foldl Journal.step j).cache.Within (ops.foldl Journal.step j').cache from hfrom _ _ (.empty h)
  induction ops with
  | nil => exact fun _ _ hj => hj
  | cons op ops ih => exact fun j j' hj => ih (j.step op) (j'.step op) (hj.step op)

/-- A cache whose entries are told in another way. -/
def map (f : α → β) (c : Cache α) : Cache β :=
  ⟨c.capacity, c.entries.map fun entry => (entry.1, f entry.2)⟩

theorem map_insert (f : α → β) (c : Cache α) (key : String) (a : α) :
    (c.insert key a).map f = (c.map f).insert key (f a) := by
  have herase : Bindings.erase key (c.entries.map fun entry => (entry.1, f entry.2)) =
      (Bindings.erase key c.entries).map fun entry => (entry.1, f entry.2) := List.filter_map
  simp only [insert, touch, trim, map, size, herase, List.map_drop, List.map_append, List.map_cons, List.map_nil,
    List.length_append, List.length_map, List.length_cons, List.length_nil]

end Cache

namespace Engine

/-- The cached templates, without the numbers of the parses that made them. -/
def templates (e : Engine) : Cache Template :=
  e.cache.map (·.template)

/-- What an operation does to the templates in the cache. -/
def Operation.keep (op : Operation) (c : Cache Template) : Cache Template :=
  match op with
  | .parse source | .renderSource source _ =>
    match Template.parse source with
    | .ok t => c.insert source t
    | .error _ => c
  | .clearCache => c.clear
  | .render _ _ | .register _ _ => c

variable {s s' : Session} {u u' : Uncached}

theorem Sound.templates_parse {e : Engine} (h : e.Sound) (source : String) :
    (e.parse source).2.templates = (Operation.parse source).keep e.templates := by
  cases hparse : Template.parse source with
  | ok template =>
    obtain ⟨t, parses, rfl, hengine⟩ := h.parse_of_ok hparse
    simp only [hengine, Operation.keep, hparse]
    exact Cache.map_insert _ e.cache source t
  | error fault => simp only [h.parse_of_error hparse, Operation.keep, hparse]

/-- A session keeps its templates as the operation says, which does not depend on what it kept before. -/
theorem Session.Agrees.templates_step (h : s.Agrees u) (op : Operation) :
    (s.step op).2.engine.templates = op.keep s.engine.templates := by
  cases op with
  | parse source =>
    rw [← h.sound.templates_parse source, Session.step]
    split <;> simp [*]
  | renderSource source context =>
    change (s.engine.renderSource source context).2.templates = (Operation.parse source).keep s.engine.templates
    rw [← h.sound.templates_parse source, renderSource]
    split <;> simp [*]
  | render n context =>
    rw [Session.step]
    split <;> rfl
  | register name filter => rfl
  | clearCache => rfl

theorem Operation.keep_within {small large : Cache Template} (h : small.Within large) (op : Operation) :
    (op.keep small).Within (op.keep large) := by
  cases op with
  | parse source | renderSource source _ =>
    simp only [Operation.keep]
    split
    · exact h.insert source _
    · exact h
  | clearCache => exact h.clear
  | render _ _ | register _ _ => exact h

theorem Session.Agrees.within_run (h : s.Agrees u) (h' : s'.Agrees u')
    (hwithin : s.engine.templates.Within s'.engine.templates) (ops : List Operation) :
    (s.run ops).2.engine.templates.Within (s'.run ops).2.engine.templates := by
  induction ops generalizing s s' u u' with
  | nil => exact hwithin
  | cons op ops ih =>
    have hstep : (s.step op).2.engine.templates.Within (s'.step op).2.engine.templates := by
      rw [h.templates_step, h'.templates_step]
      exact op.keep_within hwithin
    exact ih (h.step op).2.1 (h'.step op).2.1 hstep

end Engine

namespace Cache

open Engine (Session)

variable {α : Type}

/-- Of two caches that are asked the same, whatever the smaller one holds the larger one holds too, in the same order,
and a fetch finds the same there. So it is with the templates of two engines. -/
theorem larger_holds_more {capacity capacity' : Nat} (h : capacity ≤ capacity') :
    (∀ ops : List (Operation α),
      let small := (Journal.run capacity ops).cache
      let large := (Journal.run capacity' ops).cache
      small.entries.Sublist large.entries ∧
        ∀ key a, (small.fetch key).1 = some a → (large.fetch key).1 = some a) ∧
    ∀ (filters : Registry) (ops : List Engine.Operation),
      let small := ((Session.start filters ⟨capacity⟩).run ops).2.engine.templates
      let large := ((Session.start filters ⟨capacity'⟩).run ops).2.engine.templates
      small.entries.Sublist large.entries ∧
        ∀ source t, (small.fetch source).1 = some t → (large.fetch source).1 = some t := by
  constructor
  · intro ops small large
    have hwithin : small.Within large := .run h ops
    exact ⟨hwithin.sublist, fun _ _ => hwithin.fst_fetch⟩
  · intro filters ops small large
    have hwithin : small.Within large :=
      (Session.Agrees.start filters ⟨capacity⟩).within_run (Session.Agrees.start filters ⟨capacity'⟩) (.empty h) ops
    exact ⟨hwithin.sublist, fun _ _ => hwithin.fst_fetch⟩

/-- The fetch hits in the larger cache only, and from then on the two forget different entries. -/
theorem larger_holds_more_parted :
    let ops : List (Operation Nat) := [.insert "a" 1, .insert "b" 2, .fetch "a", .insert "c" 3]
    let small := (Journal.run 1 ops).cache
    let large := (Journal.run 2 ops).cache
    let asked : List Engine.Operation := [.parse "a", .parse "b", .parse "a", .parse "c"]
    1 ≤ 2 ∧ small.entries = [("c", 3)] ∧ large.entries = [("a", 1), ("c", 3)] ∧
      small.entries.Sublist large.entries ∧ (small.fetch "c").1 = some 3 ∧ (large.fetch "c").1 = some 3 ∧
      ((Session.start .empty ⟨1⟩).run asked).2.engine.templates.entries.Sublist
        ((Session.start .empty ⟨2⟩).run asked).2.engine.templates.entries := by
  intro ops small large asked
  obtain ⟨hcaches, hengines⟩ := @larger_holds_more Nat 1 2 (by decide)
  have hhit : (small.fetch "c").1 = some 3 := by decide
  exact ⟨by decide, by decide, by decide, (hcaches ops).1, hhit, (hcaches ops).2 "c" 3 hhit, (hengines .empty asked).1⟩

end Cache

end TextTemplate
