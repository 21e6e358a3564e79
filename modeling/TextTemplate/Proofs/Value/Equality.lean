import Mathlib.Data.List.Perm.Subperm
import TextTemplate.Proofs.Value.Parts

namespace TextTemplate

theorem Number.equal_iff {a b : Number} : a.equal b = true ↔ a ≠ .nan ∧ a = b := by
  simp [equal]

namespace Value

theorem allLooseEq_iff {as bs : List Value} : allLooseEq as bs = true ↔
    as.length = bs.length ∧ ∀ (i : Nat) (a b : Value), as[i]? = some a → bs[i]? = some b → a.looseEq b = true := by
  induction as generalizing bs with
  | nil => cases bs <;> simp [allLooseEq]
  | cons a as ih =>
    cases bs with
    | nil => simp [allLooseEq]
    | cons b bs =>
      have hitems : (∀ (i : Nat) (x y : Value), (a :: as)[i]? = some x → (b :: bs)[i]? = some y → x.looseEq y = true) ↔
          a.looseEq b = true ∧ ∀ (i : Nat) (x y : Value), as[i]? = some x → bs[i]? = some y → x.looseEq y = true := by
        rw [← Nat.and_forall_add_one]
        simp
      rw [allLooseEq, Bool.and_eq_true, ih, hitems]
      simp [and_left_comm]

theorem fieldsLooseEq_iff {as bs : List (String × Value)} : fieldsLooseEq as bs = true ↔
    ∀ field ∈ as, ∃ b, bs.lookup field.1 = some b ∧ field.2.looseEq b = true := by
  induction as with
  | nil => simp [fieldsLooseEq]
  | cons field as ih =>
    obtain ⟨name, a⟩ := field
    rw [fieldsLooseEq, Bool.and_eq_true, ih, List.forall_mem_cons]
    cases bs.lookup name <;> simp

theorem looseEq_atom_iff {a b : Value} (h : a.IsAtom) : a.looseEq b = true ↔ a = b ∧ a ≠ number .nan := by
  cases a with
  | array | object => exact h.elim
  | number x => cases b <;> simp [looseEq, Number.equal_iff, and_comm]
  | nil | boolean | string | date => cases b <;> simp [looseEq]

theorem looseEq_array_iff {as : List Value} {b : Value} : (array as).looseEq b = true ↔
    ∃ bs, b = array bs ∧ as.length = bs.length ∧
      ∀ (i : Nat) (x y : Value), as[i]? = some x → bs[i]? = some y → x.looseEq y = true := by
  cases b <;> simp [looseEq, allLooseEq_iff]

theorem looseEq_object_iff {as : List (String × Value)} {b : Value} : (object as).looseEq b = true ↔
    ∃ bs, b = object bs ∧ as.length = bs.length ∧
      ∀ field ∈ as, ∃ y, bs.lookup field.1 = some y ∧ field.2.looseEq y = true := by
  cases b <;> simp [looseEq, fieldsLooseEq_iff]

/-- The same value with the fields of some of its objects, at any depth, in another order. -/
inductive Reordered : Value → Value → Prop
  | refl (v : Value) : Reordered v v
  | trans {a b c : Value} (h : Reordered a b) (h' : Reordered b c) : Reordered a c
  | fields {as bs : List (String × Value)} (h : as.Perm bs) : Reordered (.object as) (.object bs)
  | element (front back : List Value) {a b : Value} (h : Reordered a b) :
    Reordered (.array (front ++ a :: back)) (.array (front ++ b :: back))
  | field (front back : List (String × Value)) (name : String) {a b : Value} (h : Reordered a b) :
    Reordered (.object (front ++ (name, a) :: back)) (.object (front ++ (name, b) :: back))

theorem NamesDistinct.reordered {a b : Value} (ha : a.NamesDistinct) (h : a.Reordered b) : b.NamesDistinct := by
  induction h with
  | refl => exact ha
  | trans _ _ ih ih' => exact ih' (ih ha)
  | fields hperm =>
    rw [namesDistinct_object_iff] at ha ⊢
    refine ⟨(hperm.map _).nodup_iff.mp ha.1, ?_⟩
    intro field hfield
    exact ha.2 field (hperm.mem_iff.mpr hfield)
  | element front back _ ih =>
    simp only [namesDistinct_array_iff, List.forall_mem_append, List.forall_mem_cons] at ha ⊢
    exact ⟨ha.1, ih ha.2.1, ha.2.2⟩
  | field front back name _ ih =>
    simp only [namesDistinct_object_iff, List.forall_mem_append, List.forall_mem_cons, List.map_append,
      List.map_cons] at ha ⊢
    exact ⟨ha.1, ha.2.1, ih ha.2.2.1, ha.2.2.2⟩

/-- If every name of the one is a name of the other and they have as many, they have the same names. -/
theorem perm_names {as bs : List (String × Value)} (ha : (as.map (·.1)).Nodup) (hlength : as.length = bs.length)
    (h : ∀ field ∈ as, ∃ y, bs.lookup field.1 = some y) : (as.map (·.1)).Perm (bs.map (·.1)) := by
  have hsubset : as.map (·.1) ⊆ bs.map (·.1) := by
    intro name hname
    obtain ⟨field, hfield, rfl⟩ := List.mem_map.mp hname
    obtain ⟨y, hy⟩ := h field hfield
    exact Bindings.mem_keys_of_lookup hy
  apply (List.subperm_of_subset ha hsubset).perm_of_length_le
  simp [hlength]

theorem looseEq_symm {a b : Value} (ha : a.NamesDistinct) (hb : b.NamesDistinct) (h : a.looseEq b = true) :
    b.looseEq a = true := by
  induction a using induction_on_parts generalizing b with
  | atom a hatom =>
    obtain ⟨rfl, hnan⟩ := (looseEq_atom_iff hatom).mp h
    exact h
  | array as ih =>
    obtain ⟨bs, rfl, hlength, hitems⟩ := looseEq_array_iff.mp h
    rw [namesDistinct_array_iff] at ha hb
    refine looseEq_array_iff.mpr ⟨as, rfl, hlength.symm, ?_⟩
    intro i y x hy hx
    have hmem : x ∈ as := List.mem_of_getElem? hx
    exact ih x hmem (ha x hmem) (hb y (List.mem_of_getElem? hy)) (hitems i x y hx hy)
  | object as ih =>
    obtain ⟨bs, rfl, hlength, hfields⟩ := looseEq_object_iff.mp h
    rw [namesDistinct_object_iff] at ha hb
    have hnames : (as.map (·.1)).Perm (bs.map (·.1)) := by
      apply perm_names ha.1 hlength
      intro field hfield
      obtain ⟨y, hy, -⟩ := hfields field hfield
      exact ⟨y, hy⟩
    refine looseEq_object_iff.mpr ⟨as, rfl, hlength.symm, ?_⟩
    rintro ⟨name, y⟩ hy
    have hname : name ∈ as.map (·.1) := hnames.mem_iff.mpr (List.mem_map_of_mem hy)
    obtain ⟨⟨name, x⟩, hx, rfl⟩ := List.mem_map.mp hname
    -- The field found under the name is this one, since no name is repeated.
    obtain ⟨found, hfound, hequal⟩ := hfields (name, x) hx
    rw [(Bindings.lookup_eq_some_iff_mem hb.1).mpr hy, Option.some.injEq] at hfound
    subst hfound
    exact ⟨x, (Bindings.lookup_eq_some_iff_mem ha.1).mpr hx, ih _ hx (ha.2 _ hx) (hb.2 _ hy) hequal⟩

theorem looseEq_comm {a b : Value} (ha : a.NamesDistinct) (hb : b.NamesDistinct) : a.looseEq b = b.looseEq a :=
  Bool.eq_iff_iff.mpr ⟨looseEq_symm ha hb, looseEq_symm hb ha⟩

theorem looseEq_trans {a b c : Value} (h : a.looseEq b = true) (h' : b.looseEq c = true) : a.looseEq c = true := by
  induction a using induction_on_parts generalizing b c with
  | atom a hatom =>
    obtain ⟨rfl, hnan⟩ := (looseEq_atom_iff hatom).mp h
    exact h'
  | array as ih =>
    obtain ⟨bs, rfl, hlength, hitems⟩ := looseEq_array_iff.mp h
    obtain ⟨cs, rfl, hlength', hitems'⟩ := looseEq_array_iff.mp h'
    refine looseEq_array_iff.mpr ⟨cs, rfl, hlength.trans hlength', ?_⟩
    intro i x z hx hz
    have hlt : i < bs.length := hlength ▸ (List.getElem?_eq_some_iff.mp hx).1
    have hy : bs[i]? = some bs[i] := List.getElem?_eq_getElem hlt
    exact ih x (List.mem_of_getElem? hx) (hitems i x _ hx hy) (hitems' i _ z hy hz)
  | object as ih =>
    obtain ⟨bs, rfl, hlength, hfields⟩ := looseEq_object_iff.mp h
    obtain ⟨cs, rfl, hlength', hfields'⟩ := looseEq_object_iff.mp h'
    refine looseEq_object_iff.mpr ⟨cs, rfl, hlength.trans hlength', ?_⟩
    intro field hfield
    obtain ⟨y, hy, hxy⟩ := hfields field hfield
    obtain ⟨z, hz, hyz⟩ := hfields' (field.1, y) (Bindings.mem_of_lookup hy)
    exact ⟨z, hz, ih field hfield hxy hyz⟩

theorem looseEq_array_self_iff {items : List Value} :
    (array items).looseEq (array items) = true ↔ ∀ item ∈ items, item.looseEq item = true := by
  rw [looseEq, allLooseEq_iff]
  constructor
  · intro h item hitem
    obtain ⟨i, hi⟩ := List.mem_iff_getElem?.mp hitem
    exact h.2 i item item hi hi
  · intro h
    refine ⟨rfl, ?_⟩
    intro i x y hx hy
    rw [hx, Option.some.injEq] at hy
    subst hy
    exact h x (List.mem_of_getElem? hx)

theorem looseEq_object_self_iff {fields : List (String × Value)} (h : (fields.map (·.1)).Nodup) :
    (object fields).looseEq (object fields) = true ↔ ∀ field ∈ fields, field.2.looseEq field.2 = true := by
  rw [looseEq, Bool.and_eq_true, beq_iff_eq, fieldsLooseEq_iff, and_iff_right rfl]
  apply forall₂_congr
  intro field hfield
  rw [(Bindings.lookup_eq_some_iff_mem h).mpr hfield]
  simp

/-- A value equals itself unless something in it is not a number. -/
theorem looseEq_self_iff {a : Value} (ha : a.NamesDistinct) :
    a.looseEq a = true ↔ ¬ (number .nan).OccursIn a := by
  induction a using induction_on_parts with
  | atom a hatom =>
    rw [looseEq_atom_iff hatom, occursIn_atom_iff hatom, eq_comm (a := number .nan)]
    simp
  | array items ih =>
    rw [namesDistinct_array_iff] at ha
    rw [looseEq_array_self_iff, occursIn_array_iff]
    simp only [reduceCtorEq, false_or, not_exists, not_and]
    exact forall₂_congr fun item hitem => ih item hitem (ha item hitem)
  | object fields ih =>
    rw [namesDistinct_object_iff] at ha
    rw [looseEq_object_self_iff ha.1, occursIn_object_iff]
    simp only [reduceCtorEq, false_or, not_exists, not_and]
    exact forall₂_congr fun field hfield => ih field hfield (ha.2 field hfield)

/-- What is reordered on the left equals what it did before. -/
theorem Reordered.looseEq_left {a b : Value} (h : a.Reordered b) (c : Value) : b.looseEq c = a.looseEq c := by
  induction h generalizing c with
  | refl => rfl
  | trans _ _ ih ih' => rw [ih', ih]
  | fields hperm =>
    cases c with
    | object cs =>
      rw [looseEq, looseEq, hperm.length_eq, Bool.eq_iff_iff, Bool.and_eq_true, Bool.and_eq_true, fieldsLooseEq_iff,
        fieldsLooseEq_iff]
      simp only [hperm.mem_iff]
    | nil | boolean | number | string | date | array => rfl
  | element front back _ ih =>
    cases c with
    | array cs =>
      rw [looseEq, looseEq]
      induction front generalizing cs with
      | nil => cases cs <;> simp [allLooseEq, ih]
      | cons first front ihfront => cases cs <;> simp [allLooseEq, ihfront]
    | nil | boolean | number | string | date | object => rfl
  | field front back name _ ih =>
    cases c with
    | object cs =>
      rw [looseEq, looseEq, Bool.eq_iff_iff, Bool.and_eq_true, Bool.and_eq_true, fieldsLooseEq_iff, fieldsLooseEq_iff]
      simp only [List.forall_mem_append, List.forall_mem_cons, List.length_append, List.length_cons, ih]
    | nil | boolean | number | string | date | array => rfl

/-- For values in which no object repeats a name, equality is symmetric and transitive, holds of a value and itself
unless something in it is not a number, and is the same after the fields of objects anywhere in both were reordered. -/
theorem looseEq_is_partial_equivalence (a b c : Value) (ha : a.NamesDistinct) (hb : b.NamesDistinct) :
    a.looseEq b = b.looseEq a ∧ (a.looseEq b = true → b.looseEq c = true → a.looseEq c = true) ∧
      (a.looseEq a = true ↔ ¬ (number .nan).OccursIn a) ∧
      ∀ a' b', a.Reordered a' → b.Reordered b' → a'.looseEq b' = a.looseEq b := by
  refine ⟨looseEq_comm ha hb, looseEq_trans, looseEq_self_iff ha, ?_⟩
  intro a' b' hab hbb
  calc
    a'.looseEq b' = a.looseEq b' := hab.looseEq_left b'
    _ = b'.looseEq a := looseEq_comm ha (hb.reordered hbb)
    _ = b.looseEq a := hbb.looseEq_left a
    _ = a.looseEq b := looseEq_comm hb ha

/-- Two objects in an array, the one a field of the other, with the fields of both in another order. -/
theorem looseEq_is_partial_equivalence_nested :
    let a : Value := .array [.object [("x", .nil), ("y", .object [("k", .string "s"), ("l", .boolean true)])]]
    let b : Value := .array [.object [("y", .object [("l", .boolean true), ("k", .string "s")]), ("x", .nil)]]
    a.NamesDistinct ∧ b.NamesDistinct ∧ a.Reordered b ∧ a.looseEq b = true ∧ b.looseEq a = true ∧
      a.looseEq b = b.looseEq a ∧ (a.looseEq b = true → b.looseEq a = true → a.looseEq a = true) ∧
      (a.looseEq a = true ↔ ¬ (number .nan).OccursIn a) ∧ b.looseEq b = a.looseEq b := by
  intro a b
  have ha : a.NamesDistinct := namesDistinct_ofJson
    (.array [.object [("x", .null), ("y", .object [("k", .string "s"), ("l", .boolean true)])]])
  have hreordered : a.Reordered b := by
    have hinner := Reordered.fields (.swap ("l", boolean true) ("k", string "s") [])
    apply Reordered.element [] []
    exact .trans (.fields (.swap ("y", _) ("x", Value.nil) [])) (.field [] [("x", .nil)] "y" hinner)
  have hb : b.NamesDistinct := ha.reordered hreordered
  have hequal : a.looseEq b = true := by decide +kernel
  have hback : b.looseEq a = true := by decide +kernel
  obtain ⟨hcomm, htrans, hself, hanywhere⟩ := looseEq_is_partial_equivalence a b a ha hb
  exact ⟨ha, hb, hreordered, hequal, hback, hcomm, htrans, hself, hanywhere b b hreordered (.refl b)⟩

end Value

end TextTemplate
