import Mathlib.Data.Int.ConditionallyCompleteOrder
import Mathlib.Data.Sum.Order
import Mathlib.Order.ConditionallyCompleteLattice.Basic
import Mathlib.Order.WithBotTop
import TextTemplate.Proofs.Outcome
import TextTemplate.Proofs.Value.Equality
import TextTemplate.Proofs.Value.Numeric
import TextTemplate.Render.Expression

namespace TextTemplate

open Outcome (map_eq_ok_iff)

namespace CompareOp

/-- The comparisons that ask for an order. -/
def IsOrder : CompareOp → Prop
  | eq | ne => False
  | lt | gt | le | ge => True

theorem isOrder_lt : lt.IsOrder := trivial

theorem isOrder_le : le.IsOrder := trivial

/-- What a comparison makes of the order of its two sides. -/
def admits : CompareOp → Ordering → Bool
  | eq => Ordering.isEq
  | ne => Ordering.isNe
  | lt => Ordering.isLT
  | gt => Ordering.isGT
  | le => Ordering.isLE
  | ge => Ordering.isGE

/-- What a comparison says of two places. -/
def Relates {α : Type} [LE α] [LT α] (op : CompareOp) (p q : α) : Prop :=
  match op with
  | eq => p = q
  | ne => p ≠ q
  | lt => p < q
  | gt => q < p
  | le => p ≤ q
  | ge => q ≤ p

/-- The comparison that says the same with its sides turned around. -/
def swap : CompareOp → CompareOp
  | lt => gt
  | gt => lt
  | le => ge
  | ge => le
  | eq => eq
  | ne => ne

theorem IsOrder.swap {op : CompareOp} (h : op.IsOrder) : op.swap.IsOrder := by
  cases op <;> first | exact h.elim | trivial

theorem admits_iff {α : Type} [Preorder α] {o : Ordering} {p q : α} (h : o.Compares p q) (op : CompareOp) :
    op.admits o = true ↔ op.Relates p q := by
  cases op with
  | eq => exact Ordering.isEq_iff_eq_eq.trans h.eq_eq
  | ne => exact Ordering.isNe_iff_ne_eq.trans h.eq_eq.not
  | lt => exact Ordering.isLT_iff_eq_lt.trans h.eq_lt
  | gt => exact Ordering.isGT_iff_eq_gt.trans h.eq_gt
  | le => exact Ordering.isLE_iff_ne_gt.trans h.ne_gt
  | ge => exact Ordering.isGE_iff_ne_lt.trans h.ne_lt

end CompareOp

section

variable {α : Type} [Preorder α] {p q : α}

theorem le_iff_not_lt_of_total (h : p ≤ q ∨ q ≤ p) : p ≤ q ↔ ¬ q < p := by
  rw [lt_iff_le_not_ge]
  tauto

theorem below_or_above_or_level (h : p ≤ q ∨ q ≤ p) :
    p < q ∧ ¬ q < p ∧ ¬ (p ≤ q ∧ q ≤ p) ∨ ¬ p < q ∧ q < p ∧ ¬ (p ≤ q ∧ q ≤ p) ∨
      ¬ p < q ∧ ¬ q < p ∧ p ≤ q ∧ q ≤ p := by
  rw [lt_iff_le_not_ge, lt_iff_le_not_ge]
  tauto

end

namespace Number

/-- The place of a number on its line. -/
def place? : Number → Option (WithBot (WithTop ℤ))
  | finite units _ => some (units : ℤ)
  | infinite negative => some (if negative then ⊥ else ⊤)
  | nan => none

theorem exists_place_or_nan (x : Number) : (∃ p, x.place? = some p) ∨ x = .nan := by
  cases x <;> simp [place?]

theorem exists_compare?_eq {x y : Number} {p q : WithBot (WithTop ℤ)} (hp : x.place? = some p)
    (hq : y.place? = some q) : ∃ o, x.compare? y = some o ∧ o.Compares p q := by
  have hinside (u : ℤ) : (⊥ : WithBot (WithTop ℤ)) < ↑u ∧ (↑u : WithBot (WithTop ℤ)) < ⊤ :=
    ⟨WithBot.bot_lt_coe _, WithBot.coe_lt_coe.mpr (WithTop.coe_lt_top u)⟩
  cases x with
  | nan => cases hp
  | finite u hu =>
    cases hp
    cases y with
    | nan => cases hq
    | finite v hv =>
      cases hq
      have hmono : StrictMono fun u : ℤ => (↑(↑u : WithTop ℤ) : WithBot (WithTop ℤ)) :=
        WithBot.coe_strictMono.comp WithTop.coe_strictMono
      exact ⟨compare u v, rfl, hmono.compares.mpr ((compare_iff u v).mp rfl)⟩
    | infinite negative =>
      cases hq
      cases negative with
      | true => exact ⟨.gt, rfl, (hinside u).1⟩
      | false => exact ⟨.lt, rfl, (hinside u).2⟩
  | infinite negative =>
    cases hp
    cases y with
    | nan => cases hq
    | finite v hv =>
      cases hq
      cases negative with
      | true => exact ⟨.lt, rfl, (hinside v).1⟩
      | false => exact ⟨.gt, rfl, (hinside v).2⟩
    | infinite negative' =>
      cases hq
      cases negative <;> cases negative'
      · exact ⟨.eq, rfl, rfl⟩
      · exact ⟨.gt, rfl, bot_lt_top⟩
      · exact ⟨.lt, rfl, bot_lt_top⟩
      · exact ⟨.eq, rfl, rfl⟩

end Number

namespace Value

/-- A date has a place among dates, and what is a number has one among numbers. -/
def place? : Value → Option (ℤ ⊕ WithBot (WithTop ℤ))
  | date d => some (.inl d.instant)
  | v => (v.asNumber?.bind Number.place?).map .inr

/-- Two dates, or two values that are numbers. -/
inductive Comparable : Value → Value → Prop
  | dates (x y : Calendar.DateTime) : Comparable (.date x) (.date y)
  | numbers {a b : Value} {x y : Number} (ha : a.asNumber? = some x) (hb : b.asNumber? = some y) : Comparable a b

theorem comparable_comm {a b : Value} : Comparable a b ↔ Comparable b a := by
  constructor <;>
  · intro h
    cases h with
    | dates x y => exact .dates y x
    | numbers ha hb => exact .numbers hb ha

theorem place?_of_asNumber? {v : Value} {x : Number} (h : v.asNumber? = some x) :
    v.place? = x.place?.map .inr := by
  cases v with
  | date d => cases h
  | nil | boolean | number | string | array | object => simp [place?, h]

theorem order?_of_asNumber? {a b : Value} {x y : Number} (ha : a.asNumber? = some x) (hb : b.asNumber? = some y)
    (op : CompareOp) : order? op a b = .ok (x.compare? y) := by
  unfold order?
  split
  · cases ha
  · simp [ha, hb]

theorem order?_of_not_comparable {a b : Value} (h : ¬ Comparable a b) (op : CompareOp) :
    order? op a b = .error (.cannotCompare a.typeName op b.typeName) := by
  unfold order?
  split
  case h_1 x y => exact absurd (.dates x y) h
  case h_2 =>
    split
    case h_1 x y ha hb => exact absurd (.numbers ha hb) h
    case h_2 => rfl

/-- Two values that can be compared stand on one line, and are then ordered by their places on it, or one of them is
not a number. -/
theorem Comparable.cases_order? {a b : Value} (h : Comparable a b) :
    (∃ p q o, a.place? = some p ∧ b.place? = some q ∧ o.Compares p q ∧ ∀ op, order? op a b = .ok (some o)) ∨
      (a.asNumber? = some .nan ∨ b.asNumber? = some .nan) ∧ ∀ op, order? op a b = .ok none := by
  cases h with
  | dates x y =>
    have hcompares : (compare x.instant y.instant).Compares x.instant y.instant := (compare_iff _ _).mp rfl
    exact .inl ⟨_, _, _, rfl, rfl, Sum.inl_strictMono.compares.mpr hcompares, fun _ => rfl⟩
  | @numbers _ _ x y ha hb =>
    have horder := order?_of_asNumber? ha hb
    obtain ⟨p, hp⟩ | rfl := x.exists_place_or_nan
    · obtain ⟨q, hq⟩ | rfl := y.exists_place_or_nan
      · obtain ⟨o, ho, hcompares⟩ := Number.exists_compare?_eq hp hq
        have hp' : a.place? = some (.inr p) := by rw [place?_of_asNumber? ha, hp, Option.map_some]
        have hq' : b.place? = some (.inr q) := by rw [place?_of_asNumber? hb, hq, Option.map_some]
        refine .inl ⟨_, _, o, hp', hq', Sum.inr_strictMono.compares.mpr hcompares, ?_⟩
        intro op
        rw [horder, ho]
      · refine .inr ⟨.inr hb, ?_⟩
        intro op
        rw [horder]
        cases x <;> rfl
    · refine .inr ⟨.inl ha, ?_⟩
      intro op
      rw [horder]
      rfl

theorem asNumber?_ne_nan_of_place? {v : Value} {p : ℤ ⊕ WithBot (WithTop ℤ)} (h : v.place? = some p) :
    v.asNumber? ≠ some .nan := by
  intro hnan
  rw [place?_of_asNumber? hnan] at h
  cases h

theorem cases_of_place? {v : Value} {p : ℤ ⊕ WithBot (WithTop ℤ)} (h : v.place? = some p) :
    (∃ d, v = date d ∧ p = .inl d.instant) ∨ ∃ x r, v.asNumber? = some x ∧ p = .inr r := by
  cases v with
  | date d => exact .inl ⟨d, rfl, (Option.some.inj h).symm⟩
  | nil | boolean | number | string | array | object =>
    simp only [place?, Option.map_eq_some_iff, Option.bind_eq_some_iff] at h
    obtain ⟨r, ⟨x, hx, -⟩, rfl⟩ := h
    exact .inr ⟨x, r, hx, rfl⟩

/-- Places that are related stand on one line. -/
theorem comparable_of_relates {a b : Value} {p q : ℤ ⊕ WithBot (WithTop ℤ)} {op : CompareOp} (hop : op.IsOrder)
    (hp : a.place? = some p) (hq : b.place? = some q) (h : op.Relates p q) : Comparable a b := by
  obtain ⟨d, rfl, rfl⟩ | ⟨x, r, hx, rfl⟩ := cases_of_place? hp
  · obtain ⟨d', rfl, rfl⟩ | ⟨y, r', hy, rfl⟩ := cases_of_place? hq
    · exact .dates d d'
    · cases op <;> simp [CompareOp.Relates, CompareOp.IsOrder] at h hop
  · obtain ⟨d', rfl, rfl⟩ | ⟨y, r', hy, rfl⟩ := cases_of_place? hq
    · cases op <;> simp [CompareOp.Relates, CompareOp.IsOrder] at h hop
    · exact .numbers hx hy

theorem compares_eq_map {op : CompareOp} (hop : op.IsOrder) (a b : Value) :
    compares op a b = (order? op a b).map fun o => o.any op.admits := by
  cases op with
  | eq | ne => exact hop.elim
  | lt | gt | le | ge =>
    rw [compares]
    cases order? _ a b <;> rfl

theorem exists_compares_iff {op : CompareOp} (hop : op.IsOrder) {a b : Value} :
    (∃ r, compares op a b = .ok r) ↔ Comparable a b := by
  rw [compares_eq_map hop]
  constructor
  · rintro ⟨r, hr⟩
    by_contra h
    rw [order?_of_not_comparable h] at hr
    cases hr
  · intro h
    obtain ⟨p, q, o, -, -, -, horder⟩ | ⟨-, horder⟩ := h.cases_order? <;> exact ⟨_, by rw [horder]; rfl⟩

/-- A comparison holds of two values exactly if it does of their places. -/
theorem compares_eq_true_iff {op : CompareOp} (hop : op.IsOrder) {a b : Value} :
    compares op a b = .ok true ↔ ∃ p q, a.place? = some p ∧ b.place? = some q ∧ op.Relates p q := by
  constructor
  · intro h
    have hcomparable := (exists_compares_iff hop).mp ⟨true, h⟩
    rw [compares_eq_map hop] at h
    obtain ⟨p, q, o, hp, hq, hcompares, horder⟩ | ⟨-, horder⟩ := hcomparable.cases_order?
    · rw [horder] at h
      exact ⟨p, q, hp, hq, (op.admits_iff hcompares).mp (Except.ok.inj h)⟩
    · rw [horder] at h
      cases h
  · rintro ⟨p, q, hp, hq, h⟩
    rw [compares_eq_map hop]
    obtain ⟨p', q', o, hp', hq', hcompares, horder⟩ | ⟨hnan, -⟩ := (comparable_of_relates hop hp hq h).cases_order?
    · cases hp.symm.trans hp'
      cases hq.symm.trans hq'
      rw [horder]
      exact congrArg Except.ok ((op.admits_iff hcompares).mpr h)
    · exact absurd hnan (not_or.mpr ⟨asNumber?_ne_nan_of_place? hp, asNumber?_ne_nan_of_place? hq⟩)

/-- A string that writes a number writes a finite one. -/
theorem asNumber?_ne_nan {v : Value} (h : v ≠ number .nan) : v.asNumber? ≠ some .nan := by
  intro hnan
  cases v with
  | number x => exact h (congrArg number (Option.some.inj hnan))
  | string text => cases isFinite_of_readNumber? hnan
  | nil | boolean | date | array | object => cases hnan

theorem Comparable.isAtom {a b : Value} (h : Comparable a b) : a.IsAtom := by
  cases h with
  | dates => trivial
  | numbers ha =>
    cases a with
    | array | object => cases ha
    | nil | boolean | number | string | date => trivial

/-- The comparison succeeds, and what it says is the case. -/
def Holds (op : CompareOp) (a b : Value) : Prop :=
  compares op a b = .ok true

instance (op : CompareOp) (a b : Value) : Decidable (Holds op a b) :=
  inferInstanceAs (Decidable (compares op a b = .ok true))

theorem Comparable.compares_eq_false {a b : Value} (h : Comparable a b)
    (hnan : a.asNumber? = some .nan ∨ b.asNumber? = some .nan) {op : CompareOp} (hop : op.IsOrder) :
    compares op a b = .ok false := by
  obtain ⟨p, q, o, hp, hq, -, -⟩ | ⟨-, horder⟩ := h.cases_order?
  · exact absurd hnan (not_or.mpr ⟨asNumber?_ne_nan_of_place? hp, asNumber?_ne_nan_of_place? hq⟩)
  · rw [compares_eq_map hop, horder]
    rfl

theorem Comparable.exists_place {a b : Value} (h : Comparable a b) (ha : a.asNumber? ≠ some .nan)
    (hb : b.asNumber? ≠ some .nan) :
    ∃ p q, a.place? = some p ∧ b.place? = some q ∧ (p ≤ q ∨ q ≤ p) := by
  obtain ⟨p, q, o, hp, hq, hcompares, -⟩ | ⟨hnan, -⟩ := h.cases_order?
  · exact ⟨p, q, hp, hq, hcompares.le_total⟩
  · exact absurd hnan (not_or.mpr ⟨ha, hb⟩)

theorem holds_iff {op : CompareOp} (hop : op.IsOrder) {a b : Value} {p q : ℤ ⊕ WithBot (WithTop ℤ)}
    (hp : a.place? = some p) (hq : b.place? = some q) : Holds op a b ↔ op.Relates p q := by
  rw [Holds, compares_eq_true_iff hop, hp, hq]
  simp

theorem holds_swap_iff {op : CompareOp} (hop : op.IsOrder) {a b : Value} : Holds op.swap b a ↔ Holds op a b := by
  have hrelates (p q : ℤ ⊕ WithBot (WithTop ℤ)) : op.swap.Relates q p ↔ op.Relates p q := by
    cases op <;> first | exact hop.elim | rfl
  rw [Holds, Holds, compares_eq_true_iff hop, compares_eq_true_iff hop.swap]
  constructor
  · rintro ⟨q, p, hq, hp, h⟩
    exact ⟨p, q, hp, hq, (hrelates p q).mp h⟩
  · rintro ⟨p, q, hp, hq, h⟩
    exact ⟨q, p, hq, hp, (hrelates p q).mpr h⟩

theorem Comparable.compares_swap {a b : Value} (h : Comparable a b) {op : CompareOp} (hop : op.IsOrder) :
    compares op a b = compares op.swap b a := by
  obtain ⟨r, hr⟩ := (exists_compares_iff hop).mpr h
  obtain ⟨r', hr'⟩ := (exists_compares_iff hop.swap).mpr (comparable_comm.mp h)
  have hholds := holds_swap_iff hop (a := a) (b := b)
  rw [Holds, Holds, hr, hr', Except.ok.injEq, Except.ok.injEq] at hholds
  rw [hr, hr', Bool.eq_iff_iff.mpr hholds]

/-- On one line, what is not below the other side is at least as far up. -/
theorem Comparable.compares_le {a b : Value} (h : Comparable a b) (ha : a.asNumber? ≠ some .nan)
    (hb : b.asNumber? ≠ some .nan) : compares .le a b = (compares .lt b a).map (!·) := by
  obtain ⟨p, q, hp, hq, htotal⟩ := h.exists_place ha hb
  have hle : Holds .le a b ↔ p ≤ q := holds_iff CompareOp.isOrder_le hp hq
  have hlt : Holds .lt b a ↔ q < p := holds_iff CompareOp.isOrder_lt hq hp
  have hnot : p ≤ q ↔ ¬ q < p := le_iff_not_lt_of_total htotal
  obtain ⟨r, hr⟩ : ∃ r, compares .le a b = .ok r := (exists_compares_iff CompareOp.isOrder_le).mpr h
  obtain ⟨r', hr'⟩ : ∃ r, compares .lt b a = .ok r :=
    (exists_compares_iff CompareOp.isOrder_lt).mpr (comparable_comm.mp h)
  rw [Holds, hr, Except.ok.injEq, hnot] at hle
  rw [Holds, hr', Except.ok.injEq] at hlt
  have hflip : r = !r' := by rw [Bool.eq_iff_iff, hle, ← hlt, Bool.not_eq_true', Bool.not_eq_true]
  rw [hr, hr', hflip]
  rfl

theorem Holds.trans {op : CompareOp} (hop : op = .lt ∨ op = .le) {a b c : Value} (hab : Holds op a b)
    (hbc : Holds op b c) : Holds op a c := by
  have horder : op.IsOrder := by obtain rfl | rfl := hop <;> trivial
  obtain ⟨p, q, hp, hq, hpq⟩ := (compares_eq_true_iff horder).mp hab
  obtain ⟨q', s, hq', hs, hqs⟩ := (compares_eq_true_iff horder).mp hbc
  cases hq.symm.trans hq'
  refine (compares_eq_true_iff horder).mpr ⟨p, s, hp, hs, ?_⟩
  obtain rfl | rfl := hop
  · exact lt_trans hpq hqs
  · exact le_trans hpq hqs

/-- The four comparisons succeed together, for two dates and for two values that are numbers, and obey the laws of an
order, with which equality agrees. -/
theorem order_is_coherent (a b c : Value) :
    (∀ op, op.IsOrder → ((∃ r, compares op a b = .ok r) ↔ Comparable a b)) ∧
    (Comparable a b → compares .lt a b = compares .gt b a ∧ compares .le a b = compares .ge b a) ∧
    (Comparable a b → a.asNumber? ≠ some .nan → b.asNumber? ≠ some .nan →
      (Holds .lt a b ∧ ¬ Holds .lt b a ∧ ¬ (Holds .le a b ∧ Holds .le b a) ∨
        ¬ Holds .lt a b ∧ Holds .lt b a ∧ ¬ (Holds .le a b ∧ Holds .le b a) ∨
        ¬ Holds .lt a b ∧ ¬ Holds .lt b a ∧ Holds .le a b ∧ Holds .le b a) ∧
      compares .le a b = (compares .lt b a).map (!·)) ∧
    (Comparable a b → a.asNumber? = some .nan ∨ b.asNumber? = some .nan →
      ∀ op, op.IsOrder → compares op a b = .ok false) ∧
    (∀ op, op = .lt ∨ op = .le → Holds op a b → Holds op b c → Holds op a c) ∧
    (Comparable a b → Holds .eq a b → Holds .le a b ∧ Holds .le b a) := by
  refine ⟨fun op hop => exists_compares_iff hop, ?_, ?_, ?_, fun op hop => Holds.trans hop, ?_⟩
  · intro h
    exact ⟨h.compares_swap CompareOp.isOrder_lt, h.compares_swap CompareOp.isOrder_le⟩
  · intro h ha hb
    refine ⟨?_, h.compares_le ha hb⟩
    obtain ⟨p, q, hp, hq, htotal⟩ := h.exists_place ha hb
    have hless : Holds .lt a b ↔ p < q := holds_iff CompareOp.isOrder_lt hp hq
    have hgreater : Holds .lt b a ↔ q < p := holds_iff CompareOp.isOrder_lt hq hp
    have hle : Holds .le a b ↔ p ≤ q := holds_iff CompareOp.isOrder_le hp hq
    have hge : Holds .le b a ↔ q ≤ p := holds_iff CompareOp.isOrder_le hq hp
    rw [hless, hgreater, hle, hge]
    exact below_or_above_or_level htotal
  · intro h hnan op hop
    exact h.compares_eq_false hnan hop
  · intro h heq
    obtain ⟨rfl, hnumber⟩ := (looseEq_atom_iff h.isAtom).mp (Except.ok.inj heq)
    have hnan := asNumber?_ne_nan hnumber
    obtain ⟨p, q, hp, hq, -⟩ := h.exists_place hnan hnan
    have hle : Holds .le a a := (compares_eq_true_iff CompareOp.isOrder_le).mpr ⟨p, p, hp, hp, le_refl p⟩
    exact ⟨hle, hle⟩

/-- Two strings that write numbers, of which the one with the smaller number is the greater text, and infinity. -/
theorem order_is_coherent_mixed :
    let a : Value := .string " 9.5"
    let b : Value := .string "1e1 "
    let c : Value := .number (.infinite false)
    let nan : Value := .number .nan
    Comparable a b ∧ Comparable a nan ∧ Holds .lt a b ∧ Holds .lt b c ∧ Holds .eq a a ∧
      (∃ r, compares .ge a b = .ok r) ∧ compares .lt a b = compares .gt b a ∧
      compares .le a b = (compares .lt b a).map (!·) ∧ compares .ge a nan = .ok false ∧ Holds .lt a c ∧
      Holds .le a a := by
  intro a b c nan
  have ha : ∃ x, a.asNumber? = some x := Option.isSome_iff_exists.mp (by decide +kernel)
  have hb : ∃ x, b.asNumber? = some x := Option.isSome_iff_exists.mp (by decide +kernel)
  obtain ⟨x, hx⟩ := ha
  obtain ⟨y, hy⟩ := hb
  have hab : Comparable a b := .numbers hx hy
  have hnan : Comparable a nan := .numbers hx rfl
  have hless : Holds .lt a b := by decide +kernel
  have hgreater : Holds .lt b c := by decide +kernel
  have hequal : Holds .eq a a := by decide +kernel
  have hcoherent := order_is_coherent a b c
  have hself := order_is_coherent a a a
  exact ⟨hab, hnan, hless, hgreater, hequal, (hcoherent.1 .ge trivial).mpr hab, (hcoherent.2.1 hab).1,
    (hcoherent.2.2.1 hab (asNumber?_ne_nan nofun) (asNumber?_ne_nan nofun)).2,
    (order_is_coherent a nan c).2.2.2.1 hnan (.inr rfl) .ge trivial,
    hcoherent.2.2.2.2.1 .lt (.inl rfl) hless hgreater, (hself.2.2.2.2.2 (.numbers hx hx) hequal).1⟩

end Value

end TextTemplate
