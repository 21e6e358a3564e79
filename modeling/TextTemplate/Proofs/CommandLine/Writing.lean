import Mathlib.Data.String.Basic
import TextTemplate.CommandLine.Files
import TextTemplate.Proofs.Outcome

namespace TextTemplate.CommandLine

open TextTemplate.Outcome (bind_eq_ok_iff)

namespace Directory

variable {d : Directory} {path text : String}

theorem splitOnAux_of_not_mem {rest : List Char} (h : '/' ∉ rest) (front : List Char) :
    (String.ofList (front ++ rest)).splitOnAux "/" 0 ⟨String.utf8Len front⟩ 0 [] = [String.ofList (front ++ rest)] := by
  induction rest generalizing front with
  | nil =>
    have hend := (String.atEnd_of_valid front []).mpr rfl
    have hextract := String.extract_of_valid [] front []
    rw [String.splitOnAux, if_pos hend]
    simpa using hextract
  | cons c rest ih =>
    obtain ⟨hc, hrest⟩ := not_or.mp (List.mem_cons.not.mp h)
    have hend := (String.atEnd_of_valid front (c :: rest)).not.mpr (List.cons_ne_nil c rest)
    have hget : ¬ (String.Pos.Raw.get (String.ofList (front ++ c :: rest)) ⟨String.utf8Len front⟩ ==
        String.Pos.Raw.get "/" 0) = true := by
      rw [String.get_of_valid, beq_iff_eq]
      exact Ne.symm hc
    have hnext : String.Pos.Raw.next (String.ofList (front ++ c :: rest)) ⟨String.utf8Len front⟩ =
        ⟨String.utf8Len (front ++ [c])⟩ := by
      rw [String.next_of_valid, String.utf8Len_append, String.utf8Len_cons, String.utf8Len_nil, Nat.zero_add]
    have hlater := ih hrest (front ++ [c])
    rw [List.append_assoc, List.singleton_append, ← hnext] at hlater
    rw [String.splitOnAux, if_neg hend, if_neg hget]
    exact hlater

/-- A name without a slash is a path of one step. -/
theorem names_of_not_mem {name : String} (hne : name ≠ "") (h : '/' ∉ name.toList) : names name = [name] := by
  have hsplit := splitOnAux_of_not_mem h []
  rw [List.nil_append, String.ofList_toList] at hsplit
  have hwhole : name.splitOn "/" = [name] := hsplit
  rw [names, hwhole]
  simp [hne]

theorem lookup_filter_of_ne {names other : List String} (h : other ≠ names) (es : List (List String × Entry)) :
    (es.filter fun e => e.1 != names).lookup other = es.lookup other := by
  induction es with
  | nil => rfl
  | cons e rest ih =>
    obtain ⟨key, entry⟩ := e
    rw [List.filter_cons, List.lookup_cons]
    by_cases hkey : key = names
    · have hother : (other == key) = false := by rw [hkey]; simpa using h
      rw [if_neg (by simp [hkey]), hother, ih]
    · rw [if_pos (by simp [hkey]), List.lookup_cons, ih]

theorem entry?_put_self (d : Directory) (names : List String) (text : String) :
    entry? (d.put names text) names = some (.file text.toUTF8) := by
  simp [put, entry?]

/-- Some entry stands at the place or below it; at the top that is always so. -/
def Holds (d : Directory) (names : List String) : Prop :=
  names = [] ∨ ∃ e ∈ d.entries, names <+: e.1

theorem holds_iff {names : List String} :
    d.Holds names ↔ (names.isEmpty || d.entries.any fun e => names.isPrefixOf e.1) = true := by
  simp only [Holds, Bool.or_eq_true, List.isEmpty_iff, List.any_eq_true, List.isPrefixOf_iff_prefix]

theorem holds_of_directory {names : List String} (h : d.entry? names = some .directory) : d.Holds names := by
  unfold entry? at h
  split at h
  · rename_i entry hlookup
    obtain ⟨before, behind, hentries, -⟩ := List.lookup_eq_some_iff.mp hlookup
    exact .inr ⟨(names, entry), by simp [hentries], List.prefix_rfl⟩
  · split at h
    · rename_i hin
      exact holds_iff.mpr hin
    · cases h

theorem Holds.ancestor {names place : List String} (hplace : d.Holds place) (h : names <+: place) :
    d.Holds names := by
  rcases hplace with rfl | ⟨e, he, hbelow⟩
  · exact .inl (List.prefix_nil.mp h)
  · exact .inr ⟨e, he, h.trans hbelow⟩

/-- What an entry is depends on the entry of that place and on what stands below. -/
theorem entry?_congr {d' : Directory} {names : List String} (hlookup : d'.entries.lookup names = d.entries.lookup names)
    (hholds : d'.Holds names ↔ d.Holds names) : d'.entry? names = d.entry? names := by
  rw [holds_iff, holds_iff, ← Bool.eq_iff_iff] at hholds
  unfold entry?
  rw [hlookup, hholds]

/-- A file put into a directory that is there changes no other entry. -/
theorem entry?_put_of_ne {place other : List String} {name : String} (hplace : d.entry? place = some .directory)
    (h : other ≠ place ++ [name]) (text : String) : entry? (d.put (place ++ [name]) text) other = d.entry? other := by
  refine entry?_congr ?_ ⟨?_, ?_⟩
  · have hne : (other == place ++ [name]) = false := by simpa using h
    rw [put, List.lookup_cons, hne]
    exact lookup_filter_of_ne h d.entries
  · rintro (rfl | ⟨e, he, hprefix⟩)
    · exact .inl rfl
    · rcases List.mem_cons.mp he with rfl | hold
      -- On the way to the file stand the directories that were there before.
      · have hbelow : other <+: place := (List.prefix_concat_iff.mp hprefix).resolve_left h
        exact (holds_of_directory hplace).ancestor hbelow
      · exact .inr ⟨e, (List.mem_filter.mp hold).1, hprefix⟩
  · rintro (rfl | ⟨e, he, hprefix⟩)
    · exact .inl rfl
    · by_cases hfile : e.1 = place ++ [name]
      · exact .inr ⟨_, List.mem_cons_self, hfile ▸ hprefix⟩
      · refine .inr ⟨e, List.mem_cons_of_mem _ (List.mem_filter.mpr ⟨he, ?_⟩), hprefix⟩
        simpa using hfile

theorem enter_eq_ok_iff {place : List String} : d.enter (some place) = .ok () ↔ d.entry? place = some .directory := by
  rw [enter]
  split <;> simp_all

/-- A step that goes neither up nor stays goes to the name in the directory. -/
theorem eq_append_of_step {place next : Option (List String)} {name : String} (h : d.step place name = .ok next)
    (hstay : name ≠ ".") (hup : name ≠ "..") : ∃ before, place = some before ∧ next = some (before ++ [name]) := by
  obtain ⟨⟨⟩, -, h⟩ := bind_eq_ok_iff.mp h
  split at h
  case h_1 => exact absurd rfl hstay
  case h_2 | h_3 | h_4 => exact absurd rfl hup
  case h_5 => split at h <;> cases h
  case h_6 before _ _ _ _ =>
    split at h
    · cases h
    · cases h
      exact ⟨before, rfl, rfl⟩

/-- Where a path that can be written leads: to a name in a directory, under which there is no directory. -/
structure Leads (d : Directory) (path : String) (place : List String) (name : String) : Prop where
  reached : ∃ start, origin path = .ok start ∧ (names path).dropLast.foldlM d.step start = .ok (some place)
  last : (names path).getLast? = some name
  step : d.step (some place) name = .ok (some (place ++ [name]))
  no_slash : ¬ path.endsWith "/"
  directory : d.entry? place = some .directory
  not_directory : d.entry? (place ++ [name]) ≠ some .directory

theorem leads_of_target {target : List String} (h : d.target path = .ok target) :
    ∃ place name, target = place ++ [name] ∧ d.Leads path place name := by
  obtain ⟨start, hstart, h⟩ := bind_eq_ok_iff.mp h
  obtain ⟨reached, hreached, h⟩ := bind_eq_ok_iff.mp h
  obtain ⟨⟨⟩, henter, h⟩ := bind_eq_ok_iff.mp h
  split at h
  · cases h
  · rename_i name hname
    split at h
    · cases h
    · rename_i hplain
      obtain ⟨next, hstep, h⟩ := bind_eq_ok_iff.mp h
      rw [not_or, not_or] at hplain
      obtain ⟨place, rfl, rfl⟩ := eq_append_of_step hstep hplain.1 hplain.2.1
      have hfree : d.entry? (place ++ [name]) ≠ some .directory := by
        intro hdirectory
        simp [hdirectory] at h
      have htarget : place ++ [name] = target := by
        simp only at h
        split at h <;> cases h <;> rfl
      exact ⟨place, name, htarget.symm, ⟨start, hstart, hreached⟩, hname, hstep, hplain.2.2,
        enter_eq_ok_iff.mp henter, hfree⟩

namespace Leads

variable {place : List String} {name : String}

theorem names_eq (h : d.Leads path place name) : names path = (names path).dropLast ++ [name] := by
  obtain ⟨front, hfront⟩ := List.getLast?_eq_some_iff.mp h.last
  rw [hfront, List.dropLast_concat]

/-- No step that could be taken before goes wrong when the file is there. -/
theorem step_put (h : d.Leads path place name) {passed next : Option (List String)} {n : String}
    (hstep : d.step passed n = .ok next) : (d.put (place ++ [name]) text).step passed n = .ok next := by
  obtain ⟨⟨⟩, henter, hrest⟩ := bind_eq_ok_iff.mp hstep
  refine bind_eq_ok_iff.mpr ⟨(), ?_, hrest⟩
  cases passed with
  | none => rfl
  | some names =>
    have hdirectory : d.entry? names = some .directory := enter_eq_ok_iff.mp henter
    have hother : names ≠ place ++ [name] := fun heq => h.not_directory (heq ▸ hdirectory)
    exact enter_eq_ok_iff.mpr ((entry?_put_of_ne h.directory hother text).trans hdirectory)

/-- The path leads to the file that is put there. -/
theorem content_put (h : d.Leads path place name) :
    (d.put (place ++ [name]) text).content path = .ok text.toUTF8 := by
  obtain ⟨start, hstart, hreached⟩ := h.reached
  have hfront : (names path).dropLast.foldlM (d.put (place ++ [name]) text).step start = .ok (some place) :=
    TextTemplate.Outcome.foldlM_eq_ok_mono (fun _ _ _ => h.step_put) hreached
  have hrun : (names path).foldlM (d.put (place ++ [name]) text).step start = .ok (some (place ++ [name])) := by
    rw [h.names_eq, List.foldlM_append]
    refine bind_eq_ok_iff.mpr ⟨some place, hfront, ?_⟩
    rw [List.foldlM_cons]
    exact bind_eq_ok_iff.mpr ⟨_, h.step_put h.step, rfl⟩
  rw [content, hstart]
  refine bind_eq_ok_iff.mpr ⟨start, rfl, bind_eq_ok_iff.mpr ⟨_, hrun, ?_⟩⟩
  rw [if_neg h.no_slash]
  simp [entry?_put_self]

end Leads

theorem fromUTF8?_toUTF8 (s : String) : String.fromUTF8? s.toUTF8 = some s := by
  rw [String.fromUTF8?, dif_pos (show s.toUTF8.IsValidUTF8 from s.isValidUTF8)]
  rfl

/-- What is written to a path is read from it. -/
theorem read_put {target : List String} (h : d.target path = .ok target) :
    (d.put target text).read path = .ok text := by
  obtain ⟨place, name, rfl, hleads⟩ := leads_of_target h
  refine bind_eq_ok_iff.mpr ⟨_, hleads.content_put, ?_⟩
  rw [fromUTF8?_toUTF8]

theorem entry?_put_of_target {target other : List String} (h : d.target path = .ok target) (hother : other ≠ target)
    (text : String) : entry? (d.put target text) other = d.entry? other := by
  obtain ⟨place, name, rfl, hleads⟩ := leads_of_target h
  exact entry?_put_of_ne hleads.directory hother text

end Directory

end TextTemplate.CommandLine
