import Mathlib.Data.List.TakeWhile
import TextTemplate.Number.Reading
import TextTemplate.Proofs.Decimal
import TextTemplate.Proofs.Text.Trim

namespace TextTemplate.Decimal

/-- Nothing or a sign. -/
inductive SpellsSign : List Char → Bool → Prop
  | absent : SpellsSign [] false
  | plus : SpellsSign ['+'] false
  | minus : SpellsSign ['-'] true

def AreDigits (cs : List Char) : Prop :=
  ∀ c ∈ cs, c.isDigit = true

/-- The digits in front of the point and behind it. -/
inductive SpellsDigits : List Char → List Char → List Char → Prop
  | whole {ds : List Char} (hne : ds ≠ []) (hds : AreDigits ds) : SpellsDigits ds ds []
  | parted {ds fs : List Char} (hne : ds ≠ []) (hds : AreDigits ds) (hfs : AreDigits fs) :
    SpellsDigits (ds ++ '.' :: fs) ds fs
  | fraction {fs : List Char} (hne : fs ≠ []) (hfs : AreDigits fs) : SpellsDigits ('.' :: fs) [] fs

/-- Nothing, or a mark, an optional sign and digits. -/
inductive SpellsPower : List Char → Int → Prop
  | absent : SpellsPower [] 0
  | marked {mark : Char} {sign ds : List Char} {negative : Bool} (hmark : mark = 'e' ∨ mark = 'E')
    (hsign : SpellsSign sign negative) (hne : ds ≠ []) (hds : AreDigits ds) :
    SpellsPower (mark :: (sign ++ ds)) (Number.signed negative (Nat.ofDigitChars 10 ds 0))

/-- A text in the form of a numeral, and the decimal that it writes. -/
inductive Spells : List Char → Decimal → Prop
  | intro {sign digits power whole fraction : List Char} {negative : Bool} {exponent : Int}
    (hsign : SpellsSign sign negative) (hdigits : SpellsDigits digits whole fraction)
    (hpower : SpellsPower power exponent) :
    Spells (sign ++ (digits ++ power))
      ⟨negative, Nat.ofDigitChars 10 (whole ++ fraction) 0, exponent - fraction.length⟩

section Sign

variable {sign rest : List Char} {negative : Bool}

theorem exists_spellsSign (cs : List Char) :
    ∃ sign, cs = sign ++ (readSign cs).2 ∧ SpellsSign sign (readSign cs).1 := by
  unfold readSign
  split
  · exact ⟨_, rfl, .minus⟩
  · exact ⟨_, rfl, .plus⟩
  · exact ⟨_, rfl, .absent⟩

theorem readSign_append (h : SpellsSign sign negative) (hrest : ∀ c ∈ rest.head?, c ≠ '-' ∧ c ≠ '+') :
    readSign (sign ++ rest) = (negative, rest) := by
  cases h with
  | plus => rfl
  | minus => rfl
  | absent =>
    rw [List.nil_append]
    unfold readSign
    split
    case h_1 => exact absurd rfl (hrest _ rfl).1
    case h_2 => exact absurd rfl (hrest _ rfl).2
    case h_3 => rfl

end Sign

theorem AreDigits.ne_sign {ds : List Char} (hds : AreDigits ds) (hne : ds ≠ []) (rest : List Char) :
    ∀ c ∈ (ds ++ rest).head?, c ≠ '-' ∧ c ≠ '+' := by
  obtain ⟨d, more, rfl⟩ := List.exists_cons_of_ne_nil hne
  intro c hc
  obtain rfl : d = c := Option.some.inj hc
  have hdigit := hds d List.mem_cons_self
  constructor <;> rintro rfl <;> exact absurd hdigit (by decide)

section Power

theorem readExponent?_eq_some_iff {cs : List Char} {e : Int} : readExponent? cs = some e ↔ SpellsPower cs e := by
  constructor
  · intro h
    cases cs with
    | nil =>
      obtain rfl := Option.some.inj h
      exact .absent
    | cons mark rest =>
      obtain ⟨sign, hrest, hsign⟩ := exists_spellsSign rest
      rw [readExponent?] at h
      split at h
      case isFalse => cases h
      case isTrue hmark =>
        generalize hread : readSign rest = signed at h hrest hsign
        obtain ⟨negative, ds⟩ := signed
        dsimp only at h hrest hsign
        split at h
        case isTrue => cases h
        case isFalse hds =>
          simp only [Bool.or_eq_true, not_or, List.isEmpty_iff, Bool.not_eq_true', Bool.not_eq_false,
            List.all_eq_true] at hds
          obtain rfl := Option.some.inj h
          subst hrest
          exact .marked (by simpa using hmark) hsign hds.1 hds.2
  · rintro (_ | ⟨hmark, hsign, hne, hds⟩)
    · rfl
    · rename_i mark sign ds negative
      have hread : readSign (sign ++ ds) = (negative, ds) := by
        apply readSign_append hsign
        simpa only [List.append_nil] using hds.ne_sign hne []
      have hds' : (ds.isEmpty || !ds.all Char.isDigit) = false := by
        rw [List.isEmpty_eq_false_iff.mpr hne, List.all_eq_true.mpr hds]
        rfl
      rw [readExponent?, if_pos (by simpa using hmark), hread]
      dsimp only
      rw [hds', if_neg Bool.false_ne_true]
      rfl

/-- The mark of a power goes on with no digits and no point. -/
theorem SpellsPower.head_ne {power : List Char} {e : Int} (h : SpellsPower power e) :
    ∀ c ∈ power.head?, c.isDigit = false ∧ c ≠ '.' := by
  cases h with
  | absent => exact fun _ hc => absurd hc (by simp)
  | marked hmark =>
    intro c hc
    obtain rfl := Option.some.inj hc
    rcases hmark with rfl | rfl <;> decide

end Power

section Digits

variable {digits whole fraction rest : List Char}

theorem readFraction_of_ne_point (h : ∀ c ∈ rest.head?, c ≠ '.') : readFraction rest = ([], rest) := by
  unfold readFraction
  split
  case h_1 => exact absurd rfl (h _ rfl)
  case h_2 => rfl

/-- Digits are cut where they end, in front of anything that goes on with neither a digit nor a point. -/
theorem SpellsDigits.cut (h : SpellsDigits digits whole fraction)
    (hrest : ∀ c ∈ rest.head?, c.isDigit = false ∧ c ≠ '.') :
    (digits ++ rest).takeWhile Char.isDigit = whole ∧
      readFraction ((digits ++ rest).dropWhile Char.isDigit) = (fraction, rest) := by
  have hdigit : ∀ c ∈ rest.head?, c.isDigit = false := fun c hc => (hrest c hc).1
  have hpoint : ∀ tail : List Char, ∀ c ∈ ('.' :: tail).head?, c.isDigit = false := by
    intro tail c hc
    obtain rfl := Option.some.inj hc
    rfl
  cases h with
  | whole hne hds =>
    obtain ⟨htake, hdrop⟩ := Text.run_append hds hdigit
    exact ⟨htake, by rw [hdrop, readFraction_of_ne_point fun c hc => (hrest c hc).2]⟩
  | parted hne hds hfs =>
    obtain ⟨htake, hdrop⟩ := Text.run_append hds (hpoint (fraction ++ rest))
    obtain ⟨htake', hdrop'⟩ := Text.run_append hfs hdigit
    rw [List.append_assoc, List.cons_append, htake, hdrop, readFraction, htake', hdrop']
    exact ⟨rfl, rfl⟩
  | fraction hne hfs =>
    obtain ⟨htake, hdrop⟩ := Text.run_append hfs hdigit
    rw [List.cons_append, List.takeWhile_cons_of_neg (by decide), List.dropWhile_cons_of_neg (by decide),
      readFraction, htake, hdrop]
    exact ⟨rfl, rfl⟩

theorem SpellsDigits.ne_nil (h : SpellsDigits digits whole fraction) :
    (whole.isEmpty && fraction.isEmpty) = false := by
  cases h with
  | whole hne _ | parted hne _ _ => rw [List.isEmpty_eq_false_iff.mpr hne, Bool.false_and]
  | fraction hne _ => rw [List.isEmpty_eq_false_iff.mpr hne, Bool.and_false]

theorem SpellsDigits.ne_sign (h : SpellsDigits digits whole fraction) (rest : List Char) :
    ∀ c ∈ (digits ++ rest).head?, c ≠ '-' ∧ c ≠ '+' := by
  cases h with
  | whole hne hds => exact hds.ne_sign hne _
  | parted hne hds _ =>
    rw [List.append_assoc]
    exact hds.ne_sign hne _
  | fraction _ _ =>
    intro c hc
    obtain rfl := Option.some.inj hc
    decide

/-- What is cut off as digits spells them, unless there are none. -/
theorem exists_spellsDigits (cs : List Char) :
    let whole := cs.takeWhile Char.isDigit
    let cut := readFraction (cs.dropWhile Char.isDigit)
    (whole.isEmpty && cut.1.isEmpty) = false → ∃ digits, cs = digits ++ cut.2 ∧ SpellsDigits digits whole cut.1 := by
  intro whole cut hsome
  have hsplit : cs = whole ++ cs.dropWhile Char.isDigit := List.takeWhile_append_dropWhile.symm
  have hwhole : AreDigits whole := fun c hc => List.mem_takeWhile_imp hc
  by_cases hpoint : ∃ tail, cs.dropWhile Char.isDigit = '.' :: tail
  · obtain ⟨tail, htail⟩ := hpoint
    have hcut : cut = (tail.takeWhile Char.isDigit, tail.dropWhile Char.isDigit) := by
      change readFraction (cs.dropWhile Char.isDigit) = _
      rw [htail, readFraction]
    have hfraction : AreDigits (tail.takeWhile Char.isDigit) := fun c hc => List.mem_takeWhile_imp hc
    rw [hcut] at hsome ⊢
    dsimp only at hsome ⊢
    rw [htail] at hsplit
    by_cases hnone : whole = []
    · rw [hnone] at hsplit hsome ⊢
      refine ⟨'.' :: tail.takeWhile Char.isDigit, ?_, .fraction ?_ hfraction⟩
      · rw [hsplit, List.nil_append, List.cons_append, List.takeWhile_append_dropWhile]
      · exact List.isEmpty_eq_false_iff.mp hsome
    · refine ⟨whole ++ '.' :: tail.takeWhile Char.isDigit, ?_, .parted hnone hwhole hfraction⟩
      rw [List.append_assoc, List.cons_append, List.takeWhile_append_dropWhile]
      exact hsplit
  · have hcut : cut = ([], cs.dropWhile Char.isDigit) := by
      apply readFraction_of_ne_point
      rintro c hc rfl
      obtain ⟨tail, htail⟩ := List.head?_eq_some_iff.mp hc
      exact hpoint ⟨tail, htail⟩
    rw [hcut] at hsome ⊢
    dsimp only at hsome ⊢
    refine ⟨whole, hsplit, .whole ?_ hwhole⟩
    rw [List.isEmpty_nil, Bool.and_true] at hsome
    exact List.isEmpty_eq_false_iff.mp hsome

end Digits

/-- Decimals are read from numerals, and from nothing else. -/
theorem read?_eq_some_iff {cs : List Char} {d : Decimal} : read? cs = some d ↔ Spells cs d := by
  constructor
  · intro h
    obtain ⟨sign, hcs, hsign⟩ := exists_spellsSign cs
    rw [read?] at h
    generalize readSign cs = signed at h hcs hsign
    obtain ⟨negative, unsigned⟩ := signed
    dsimp only at h hcs hsign
    have hcut := exists_spellsDigits unsigned
    dsimp only at hcut
    generalize readFraction (unsigned.dropWhile Char.isDigit) = cut at h hcut
    generalize unsigned.takeWhile Char.isDigit = whole at h hcut
    obtain ⟨fraction, rest⟩ := cut
    dsimp only at h hcut
    split at h
    case isTrue => cases h
    case isFalse hsome =>
      obtain ⟨e, hpower, rfl⟩ := Option.map_eq_some_iff.mp h
      obtain ⟨digits, hunsigned, hdigits⟩ := hcut (Bool.eq_false_iff.mpr hsome)
      rw [hcs, hunsigned]
      exact .intro hsign hdigits (readExponent?_eq_some_iff.mp hpower)
  · rintro ⟨hsign, hdigits, hpower⟩
    obtain ⟨htake, hcut⟩ := hdigits.cut hpower.head_ne
    rw [read?, readSign_append hsign (hdigits.ne_sign _)]
    dsimp only
    rw [htake, hcut]
    dsimp only
    rw [hdigits.ne_nil, if_neg Bool.false_ne_true, readExponent?_eq_some_iff.mpr hpower]
    rfl

end TextTemplate.Decimal
