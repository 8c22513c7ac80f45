import StatsRelay.Proofs.Literals
import StatsRelay.Proofs.Rounding

/-! How numbers are written. Every finite number is written as a literal that has a fraction or an
exponent, so it is never taken for an integer; any other is written as null. -/
namespace StatsRelay.Decimal

namespace Interval

variable {interval : Interval} {tie : Tie}

theorem holds_of_neighbour? {n : Nat} (found : interval.neighbour? tie = some n) :
    interval.holds n := by
  unfold neighbour? at found
  simp only at found
  split at found <;> rename_i below above
  · cases found
  · exact Option.some.inj found ▸ below
  · exact Option.some.inj found ▸ above
  · have either : n = interval.value / interval.denominator ∨
        n = if interval.value % interval.denominator = 0 then interval.value / interval.denominator
          else interval.value / interval.denominator + 1 := by
      split at found <;> grind
    rcases either with rfl | rfl
    · exact below
    · exact above

theorem pos_of_holds {n : Nat} (low : 0 < interval.low) (held : interval.holds n) : 0 < n := by
  apply Nat.pos_of_ne_zero
  rintro rfl
  unfold holds at held
  split at held <;> simp only [Nat.zero_mul, Bool.and_eq_true, decide_eq_true_eq] at held <;> omega

theorem inUnits_low_pos (low : 0 < interval.low) (exponent : Int) :
    0 < (interval.inUnits exponent).low :=
  Nat.mul_pos low (Nat.pow_pos (by decide))

theorem search_pos (low : 0 < interval.low) {tries : Nat} {exponent : Int} {numeral : Numeral}
    (found : interval.search tie tries exponent = some numeral) : 0 < numeral.significand := by
  induction tries generalizing exponent with
  | zero => cases found
  | succ tries ih =>
    rw [search] at found
    split at found
    · rename_i significand neighbour
      cases found
      exact pos_of_holds (inUnits_low_pos low exponent) (holds_of_neighbour? neighbour)
    · exact ih found

theorem ofFinite_low_pos (f : Format) {significand : Nat} (positive : 0 < significand)
    (exponent : Int) : 0 < (ofFinite f significand exponent).low := by
  refine Nat.mul_pos ?_ (Nat.mul_pos Nat.one_pos (Nat.pow_pos (by decide)))
  split <;> omega

end Interval

theorem shortest_pos (f : Format) (tie : Tie) {significand : Nat} (positive : 0 < significand)
    (exponent : Int) : 0 < (shortest f tie significand exponent).significand := by
  rw [shortest, if_neg (Nat.ne_of_gt positive)]
  cases found : (Interval.ofFinite f significand exponent).search tie (f.places + 3)
      (startExponent significand exponent) with
  | none => exact positive
  | some numeral => exact Interval.search_pos (Interval.ofFinite_low_pos f positive exponent) found

/-- Zero has no zeros after it. -/
def Numeral.Plain (numeral : Numeral) : Prop := numeral.significand = 0 → numeral.exponent = 0

/-- The shortest decimal ends in no zero. -/
theorem shortest_plain (f : Format) (tie : Tie) (significand : Nat) (exponent : Int) :
    (shortest f tie significand exponent).Plain := by
  intro zero
  rcases Nat.eq_zero_or_pos significand with rfl | positive
  · rfl
  · exact absurd zero (Nat.ne_of_gt (shortest_pos f tie positive exponent))

end StatsRelay.Decimal

namespace StatsRelay.Json

open StatsRelay.Decimal

namespace Literal

/-- Written with a fraction or an exponent. -/
structure Parted (literal : Literal) : Prop extends literal.WellFormed where
  parted : literal.fraction ≠ [] ∨ literal.exponent ≠ []

theorem Parted.integer?_eq_none {literal : Literal} (parted : literal.Parted) :
    literal.integer? = none := if_pos parted.parted

/-- The same with or without a sign. -/
theorem Parted.signed {literal : Literal} (parted : literal.Parted) (negative : Bool) :
    Parted { literal with negative } where
  whole := parted.whole
  filled := parted.filled
  leading := parted.leading
  fraction := parted.fraction
  exponent := parted.exponent
  unsigned := parted.unsigned
  parted := parted.parted

end Literal

variable {layout : Layout} {digits : List Char}

theorem toDigits_isDigit (n : Nat) : ∀ c ∈ Nat.toDigits 10 n, c.isDigit = true :=
  fun _ => Nat.isDigit_of_mem_toDigits (by decide) (by decide)

theorem isDigit_of_mem_zeros {count : Nat} : ∀ c ∈ Layout.zeros count, c.isDigit = true := by
  intro c c_mem
  rw [List.eq_of_mem_replicate c_mem]
  decide

/-- Digits around a point are a literal. -/
theorem exists_parted {whole fraction : List Char} (each : ∀ c ∈ whole, c.isDigit = true)
    (nonempty : whole ≠ []) (leading : ∀ rest, whole = '0' :: rest → rest = [])
    (each' : ∀ c ∈ fraction, c.isDigit = true) (nonempty' : fraction ≠ []) :
    ∃ literal : Literal, literal.Parted ∧ literal.negative = false ∧
      literal.spell = whole ++ '.' :: fraction := by
  refine ⟨⟨false, whole, fraction, false, []⟩, ?_, rfl, ?_⟩
  · exact ⟨⟨each, nonempty, leading, each', by simp, fun _ => rfl⟩, .inl nonempty'⟩
  · simp [Literal.spell, Literal.spellFraction, Literal.spellExponent, nonempty']

/-- The point stands after all digits, among them or before them. -/
theorem plain_spells (fraction : layout.wholeFraction = true) {exponent : Int}
    (each : ∀ c ∈ digits, c.isDigit = true) (nonempty : digits ≠ [])
    (leading : ∀ rest, digits = '0' :: rest → rest = [] ∧ exponent = 0) :
    ∃ literal : Literal, literal.Parted ∧ literal.negative = false ∧
      literal.spell = layout.plain digits exponent := by
  obtain ⟨first, others, rfl⟩ := List.exists_cons_of_ne_nil nonempty
  unfold Layout.plain
  simp only
  split
  · refine exists_parted ?_ (by simp) ?_ (by simp) (by simp)
    · exact List.forall_mem_append.mpr ⟨each, isDigit_of_mem_zeros⟩
    · rintro rest starts
      obtain ⟨rfl, rfl⟩ := List.cons.inj starts
      obtain ⟨rfl, rfl⟩ := leading others rfl
      rfl
  · split
    · obtain ⟨count, equal⟩ : ∃ count : Nat, (first :: others).length + exponent = (count + 1 : Nat) :=
        ⟨((first :: others).length + exponent).toNat - 1, by omega⟩
      rw [equal, Int.toNat_natCast]
      refine exists_parted ?_ (by simp) ?_ ?_ ?_
      · exact fun c c_mem => each c (List.mem_of_mem_take c_mem)
      · intro rest starts
        obtain ⟨rfl, _⟩ := List.cons.inj starts
        exact absurd (leading others rfl).2 (by omega)
      · exact fun c c_mem => each c (List.mem_of_mem_drop c_mem)
      · exact List.ne_nil_of_length_pos (by rw [List.length_drop]; omega)
    · have zero : ∀ c ∈ ['0'], c.isDigit = true := List.forall_mem_singleton.mpr rfl
      refine exists_parted zero (by simp) (by simp) ?_ (by simp)
      exact List.forall_mem_append.mpr ⟨isDigit_of_mem_zeros, each⟩

theorem scientific_spells (each : ∀ c ∈ digits, c.isDigit = true) (nonempty : digits ≠ [])
    (power : Int) :
    ∃ literal : Literal, literal.Parted ∧ literal.negative = false ∧
      literal.spell = Layout.scientific digits power := by
  obtain ⟨first, others, rfl⟩ := List.exists_cons_of_ne_nil nonempty
  obtain ⟨digit, others'⟩ := List.forall_mem_cons.mp each
  refine ⟨⟨false, [first], others, power < 0, Nat.toDigits 10 power.natAbs⟩, ?_, rfl, ?_⟩
  · refine ⟨⟨by simpa using digit, by simp, ?_, others', toDigits_isDigit _, ?_⟩, .inr ?_⟩
    · rintro rest starts
      exact (List.cons.inj starts).2.symm
    · exact fun none => absurd none Nat.toDigits_ne_nil
    · exact Nat.toDigits_ne_nil
  · cases others <;>
      simp [Literal.spell, Literal.spellFraction, Literal.spellExponent, Layout.scientific]

/-- A number is written as a literal for just its decimal. -/
theorem writeNumeral_spells (fraction : layout.wholeFraction = true) {numeral : Numeral}
    (plain : numeral.Plain) :
    ∃ literal : Literal, literal.Parted ∧ literal.negative = false ∧
      literal.spell = layout.writeNumeral numeral := by
  unfold Layout.writeNumeral
  simp only
  split
  · refine plain_spells fraction (toDigits_isDigit _) Nat.toDigits_ne_nil fun rest starts => ?_
    obtain rfl := toDigits_leading starts
    have value : Nat.ofDigitChars 10 (Nat.toDigits 10 numeral.significand) 0 = numeral.significand :=
      Nat.ofDigitChars_toDigits (by decide) (by decide)
    rw [starts] at value
    exact ⟨rfl, plain value.symm⟩
  · exact scientific_spells (toDigits_isDigit _) Nat.toDigits_ne_nil _

theorem writeBinary_spells {f : Format} (fraction : layout.wholeFraction = true) {value : Binary f}
    (finite : value.isFinite) :
    ∃ literal : Literal, literal.Parted ∧ literal.spell = writeBinary layout value := by
  obtain ⟨significand, exponent, read, _⟩ := Binary.reading_of_isFinite finite
  obtain ⟨literal, parted, unsigned, spelled⟩ :=
    writeNumeral_spells fraction (shortest_plain f layout.tie significand exponent)
  refine ⟨_, parted.signed value.isNegative, ?_⟩
  simp only [writeBinary, read, Layout.writeFinite, ← spelled]
  simp [Literal.spell, unsigned]

/-- What is no finite number is written as null. -/
theorem writeBinary_not_finite {f : Format} {value : Binary f} (other : value.isFinite = false) :
    writeBinary layout value = ['n', 'u', 'l', 'l'] := by
  unfold writeBinary
  split
  · rename_i read
    exact absurd (Binary.isFinite_of_reading read) (by simp [other])
  · rfl

end StatsRelay.Json
