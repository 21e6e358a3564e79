import TextTemplate.Proofs.Bindings
import TextTemplate.Value.Basic

namespace TextTemplate.Value

/-- A value without parts. -/
def IsAtom : Value → Prop
  | array _ | object _ => False
  | _ => True

/-- Induction from the parts of an array or an object to the whole. -/
theorem induction_on_parts {motive : Value → Prop} (atom : ∀ v, v.IsAtom → motive v)
    (array : ∀ items, (∀ item ∈ items, motive item) → motive (.array items))
    (object : ∀ fields, (∀ field ∈ fields, motive field.2) → motive (.object fields)) (v : Value) : motive v := by
  apply @Value.rec motive (fun items => ∀ item ∈ items, motive item) (fun fields => ∀ field ∈ fields, motive field.2)
    (fun field => motive field.2)
  case nil | boolean | number | string | date => intros; exact atom _ trivial
  case array => exact array
  case object => exact object
  case nil | nil => simp
  case cons | cons =>
    intro head tail hhead htail
    simp only [List.forall_mem_cons]
    exact ⟨hhead, htail⟩
  case mk => exact fun _ _ h => h

/-- The first value is the second or stands somewhere in it. -/
inductive OccursIn : Value → Value → Prop
  | self (v : Value) : OccursIn v v
  | element {w item : Value} {items : List Value} (hitem : item ∈ items) (h : OccursIn w item) :
    OccursIn w (.array items)
  | field {w : Value} {field : String × Value} {fields : List (String × Value)} (hfield : field ∈ fields)
    (h : OccursIn w field.2) : OccursIn w (.object fields)

theorem occursIn_atom_iff {v w : Value} (h : v.IsAtom) : w.OccursIn v ↔ w = v := by
  constructor
  · intro hw
    cases hw with
    | self => rfl
    | element | field => exact h.elim
  · rintro rfl
    exact .self w

theorem occursIn_array_iff {w : Value} {items : List Value} :
    w.OccursIn (array items) ↔ w = array items ∨ ∃ item ∈ items, w.OccursIn item := by
  constructor
  · intro hw
    cases hw with
    | self => exact .inl rfl
    | element hitem h => exact .inr ⟨_, hitem, h⟩
  · rintro (rfl | ⟨item, hitem, h⟩)
    · exact .self _
    · exact .element hitem h

theorem occursIn_object_iff {w : Value} {fields : List (String × Value)} :
    w.OccursIn (object fields) ↔ w = object fields ∨ ∃ field ∈ fields, w.OccursIn field.2 := by
  constructor
  · intro hw
    cases hw with
    | self => exact .inl rfl
    | field hfield h => exact .inr ⟨_, hfield, h⟩
  · rintro (rfl | ⟨field, hfield, h⟩)
    · exact .self _
    · exact .field hfield h

/-- No object in the value has two fields of one name. -/
def NamesDistinct (v : Value) : Prop :=
  ∀ fields, (object fields).OccursIn v → (fields.map (·.1)).Nodup

theorem namesDistinct_array_iff {items : List Value} :
    (array items).NamesDistinct ↔ ∀ item ∈ items, item.NamesDistinct := by
  simp only [NamesDistinct, occursIn_array_iff, reduceCtorEq, false_or]
  constructor
  · intro h item hitem fields hfields
    exact h fields ⟨item, hitem, hfields⟩
  · rintro h fields ⟨item, hitem, hfields⟩
    exact h item hitem fields hfields

theorem namesDistinct_object_iff {fields : List (String × Value)} :
    (object fields).NamesDistinct ↔ (fields.map (·.1)).Nodup ∧ ∀ field ∈ fields, field.2.NamesDistinct := by
  simp only [NamesDistinct, occursIn_object_iff, object.injEq]
  constructor
  · intro h
    refine ⟨h fields (.inl rfl), ?_⟩
    intro field hfield inner hinner
    exact h inner (.inr ⟨field, hfield, hinner⟩)
  · rintro ⟨hnodup, h⟩ inner (rfl | ⟨field, hfield, hinner⟩)
    · exact hnodup
    · exact h field hfield inner hinner

theorem namesDistinct_of_isAtom {v : Value} (h : v.IsAtom) : v.NamesDistinct := by
  intro fields hfields
  rw [occursIn_atom_iff h] at hfields
  subst hfields
  exact h.elim

theorem NamesDistinct.insert {v : Value} {fields : List (String × Value)} (h : (object fields).NamesDistinct)
    (hv : v.NamesDistinct) (name : String) : (object (Bindings.insert name v fields)).NamesDistinct := by
  rw [namesDistinct_object_iff] at h ⊢
  have hnodup := Bindings.nodup_names_insert name v h.1
  refine ⟨hnodup, ?_⟩
  rintro ⟨key, w⟩ hfield
  have hlookup := (Bindings.lookup_eq_some_iff_mem hnodup).mpr hfield
  rw [Bindings.lookup_insert] at hlookup
  split at hlookup
  case isTrue => exact Option.some.inj hlookup ▸ hv
  case isFalse => exact h.2 _ (Bindings.mem_of_lookup hlookup)

mutual

/-- Values that are read from JSON repeat no name in an object, also where the text does. -/
theorem namesDistinct_ofJson (json : Json) : (ofJson json).NamesDistinct := by
  cases json with
  | null | boolean | integer | real | string => exact namesDistinct_of_isAtom trivial
  | array items => exact namesDistinct_array_iff.mpr (namesDistinct_ofJsonItems items)
  | object members =>
    have hempty : (object []).NamesDistinct := by simp [namesDistinct_object_iff]
    exact namesDistinct_ofJsonMembers members hempty

theorem namesDistinct_ofJsonItems (items : List Json) : ∀ v ∈ ofJsonItems items, v.NamesDistinct := by
  cases items with
  | nil => simp [ofJsonItems]
  | cons item items =>
    rw [ofJsonItems, List.forall_mem_cons]
    exact ⟨namesDistinct_ofJson item, namesDistinct_ofJsonItems items⟩

theorem namesDistinct_ofJsonMembers (members : List (String × Json)) {fields : List (String × Value)}
    (h : (object fields).NamesDistinct) : (object (ofJsonMembers members fields)).NamesDistinct := by
  cases members with
  | nil => exact h
  | cons first members =>
    obtain ⟨name, member⟩ := first
    exact namesDistinct_ofJsonMembers members (h.insert (namesDistinct_ofJson member) name)

end

end TextTemplate.Value
