import Mathlib.Algebra.Order.Field.Power
import Mathlib.Algebra.Order.Field.Rat
import Mathlib.Data.Rat.Cast.Order
import Mathlib.Tactic.FieldSimp
import Mathlib.Tactic.Linarith
import Mathlib.Tactic.Positivity
import Mathlib.Tactic.Ring
import StatsRelay.Decimal.Binary

/-! What the patterns of binary numbers stand for, and when rounding keeps a value. A format holds a
dyadic value exactly if its significand fits, and rounding a value that a format holds gives the
pattern of that very value. -/
namespace StatsRelay.Decimal

namespace Format

/-- The significand has as many digits as fit, and fewer only with the least exponent. -/
structure Holds (f : Format) (significand : Nat) (exponent : Int) : Prop where
  fits : significand < 2 ^ (f.fraction + 1)
  low : f.least ≤ exponent
  full : f.least < exponent → 2 ^ f.fraction ≤ significand

def pattern (f : Format) (significand : Nat) (exponent : Int) : Nat :=
  significand + (exponent - f.least).toNat * 2 ^ f.fraction

theorem Holds.pattern_eq_zero_iff {f : Format} {significand : Nat} {exponent : Int}
    (held : f.Holds significand exponent) : f.pattern significand exponent = 0 ↔ significand = 0 := by
  have unit : 0 < 2 ^ f.fraction := Nat.two_pow_pos _
  have full := held.full
  rcases held.low.eq_or_lt with rfl | above
  · simp [pattern]
  · simp only [pattern]
    have := full above
    omega

end Format

namespace Binary

variable {f : Format}

theorem isFinite_of_reading {x : Binary f} {negative : Bool} {significand : Nat} {exponent : Int}
    (read : x.reading = .finite negative significand exponent) : x.isFinite := by
  rw [isFinite, decide_eq_true_eq]
  by_contra reached
  rcases (Nat.le_of_not_lt reached).eq_or_lt with infinite | beyond
  · simp [reading, infinite] at read
  · simp [reading, beyond] at read

theorem reading_of_isFinite {x : Binary f} (finite : x.isFinite) :
    ∃ significand exponent, x.reading = .finite x.isNegative significand exponent ∧
      f.Holds significand exponent ∧ x.magnitude = f.pattern significand exponent := by
  have finite : x.magnitude < f.infinity := by simpa [isFinite] using finite
  have unit : 0 < 2 ^ f.fraction := Nat.two_pow_pos _
  have digits : x.magnitude % 2 ^ f.fraction < 2 ^ f.fraction := Nat.mod_lt _ unit
  have parts := Nat.div_add_mod x.magnitude (2 ^ f.fraction)
  by_cases subnormal : x.magnitude / 2 ^ f.fraction = 0
  · refine ⟨x.magnitude % 2 ^ f.fraction, f.least, ?_, ⟨?_, le_rfl, by simp⟩, ?_⟩
    · simp [reading, not_lt_of_gt finite, finite.ne, subnormal]
    · rw [Nat.pow_succ]
      omega
    · rw [subnormal] at parts
      simp [Format.pattern]
      omega
  · obtain ⟨field, above⟩ := Nat.exists_eq_succ_of_ne_zero subnormal
    refine ⟨x.magnitude % 2 ^ f.fraction + 2 ^ f.fraction, f.least + field, ?_,
      ⟨?_, by omega, ?_⟩, ?_⟩
    · simp [reading, not_lt_of_gt finite, finite.ne, above]
      omega
    · rw [Nat.pow_succ]
      omega
    · intro _
      omega
    · rw [above] at parts
      simp [Format.pattern]
      linarith

end Binary

theorem roundedQuotient_mul (n : Nat) {d : Nat} (positive : 0 < d) :
    roundedQuotient (n * d) d = n := by
  have below : compare 0 d = .lt := Nat.compare_eq_lt.mpr positive
  simp only [roundedQuotient, Nat.mul_mod_left, Nat.mul_zero, Nat.mul_div_cancel n positive, below]

def ratio (parts : Nat × Nat) : ℚ := parts.1 / parts.2

theorem scaled_pos {n d : Nat} (positive : 0 < d) (shift : Int) : 0 < (scaled n d shift).2 :=
  Nat.mul_pos positive (Nat.two_pow_pos _)

theorem ratio_scaled (n d : Nat) (shift : Int) :
    ratio (scaled n d shift) = ratio (n, d) * 2 ^ shift := by
  have split : (2 : ℚ) ^ shift = 2 ^ shift.toNat / 2 ^ (-shift).toNat := by
    rw [← zpow_natCast, ← zpow_natCast, ← zpow_sub₀ two_ne_zero]
    congr 1
    omega
  rw [split, ratio, ratio, scaled]
  push_cast [Nat.pow_eq]
  exact mul_div_mul_comm (n : ℚ) _ _ _

theorem div_lt_iff_ratio_lt {n d : Nat} (positive : 0 < d) (bound : Nat) :
    n / d < bound ↔ ratio (n, d) < bound := by
  have positive' : (0 : ℚ) < d := by exact_mod_cast positive
  rw [Nat.div_lt_iff_lt_mul positive, ratio, div_lt_iff₀ positive']
  exact_mod_cast Iff.rfl

theorem ratio_bounds {n d : Nat} (nonzero : n ≠ 0) (positive : 0 < d) :
    (2 : ℚ) ^ ((n.log2 : Int) - d.log2 - 1) < ratio (n, d) ∧
      ratio (n, d) < 2 ^ ((n.log2 : Int) - d.log2 + 1) := by
  have low : (2 : ℚ) ^ n.log2 ≤ n := by exact_mod_cast Nat.log2_self_le nonzero
  have high : (n : ℚ) < 2 ^ (n.log2 + 1) := by exact_mod_cast Nat.lt_log2_self
  have low' : (2 : ℚ) ^ d.log2 ≤ d := by exact_mod_cast Nat.log2_self_le (Nat.ne_of_gt positive)
  have high' : (d : ℚ) < 2 ^ (d.log2 + 1) := by exact_mod_cast Nat.lt_log2_self
  have positive' : (0 : ℚ) < d := by exact_mod_cast positive
  constructor
  · rw [ratio, lt_div_iff₀ positive']
    calc (2 : ℚ) ^ ((n.log2 : Int) - d.log2 - 1) * d
        < 2 ^ ((n.log2 : Int) - d.log2 - 1) * 2 ^ (d.log2 + 1) := by gcongr
      _ = 2 ^ n.log2 := by
        rw [← zpow_natCast, ← zpow_natCast, ← zpow_add₀ two_ne_zero]
        congr 1
        omega
      _ ≤ n := low
  · rw [ratio, div_lt_iff₀ positive']
    calc (n : ℚ) < 2 ^ (n.log2 + 1) := high
      _ = 2 ^ ((n.log2 : Int) - d.log2 + 1) * 2 ^ d.log2 := by
        rw [← zpow_natCast, ← zpow_natCast, ← zpow_add₀ two_ne_zero]
        congr 1
        omega
      _ ≤ 2 ^ ((n.log2 : Int) - d.log2 + 1) * d := by gcongr

namespace Format

variable {f : Format} {significand : Nat} {exponent : Int}

/-- The last place of a value that the format holds is found from the first digits of the ratio. -/
theorem Holds.unit_eq (held : f.Holds significand exponent) {v : ℚ}
    (same : v = significand * 2 ^ exponent) {place : Int} (low : (2 : ℚ) ^ (place - 1) < v)
    (high : v < 2 ^ (place + 1)) :
    max (if v < 2 ^ place then place - f.fraction - 1 else place - f.fraction) f.least = exponent := by
  have fits : v < 2 ^ (exponent + f.fraction + 1) := by
    have bound : (significand : ℚ) < 2 ^ (f.fraction + 1) := by exact_mod_cast held.fits
    have split : exponent + f.fraction + 1 = ((f.fraction + 1 : Nat) : Int) + exponent := by omega
    rw [same, split, zpow_add₀ two_ne_zero, zpow_natCast]
    gcongr
  have increasing {a b : Int} : (2 : ℚ) ^ a < 2 ^ b ↔ a < b := zpow_lt_zpow_iff_right₀ one_lt_two
  by_cases full : 2 ^ f.fraction ≤ significand
  · have reaches : (2 : ℚ) ^ (exponent + f.fraction) ≤ v := by
      have bound : (2 : ℚ) ^ f.fraction ≤ significand := by exact_mod_cast full
      rw [same, add_comm, zpow_add₀ two_ne_zero, zpow_natCast]
      gcongr
    have low' := increasing.mp (low.trans fits)
    have high' := increasing.mp (reaches.trans_lt high)
    have least := held.low
    split
    · rename_i below
      have := increasing.mp (reaches.trans_lt below)
      omega
    · rename_i above
      have := increasing.mp ((not_lt.mp above).trans_lt fits)
      omega
  · have bottom : exponent = f.least := by
      have := held.low
      have := held.full
      omega
    have short : v < 2 ^ (exponent + f.fraction) := by
      have bound : (significand : ℚ) < 2 ^ f.fraction := by exact_mod_cast not_le.mp full
      rw [same, add_comm, zpow_add₀ two_ne_zero, zpow_natCast]
      gcongr
    have low' := increasing.mp (low.trans short)
    split
    · omega
    · rename_i above
      have := increasing.mp ((not_lt.mp above).trans_lt short)
      omega

theorem Holds.nearest_eq (held : f.Holds significand exponent)
    (finite : f.pattern significand exponent ≤ f.infinity) {n d : Nat} (positive : 0 < d)
    (same : ratio (n, d) = significand * 2 ^ exponent) :
    f.nearest n d = f.pattern significand exponent := by
  have divisor : (d : ℚ) ≠ 0 := by exact_mod_cast Nat.ne_of_gt positive
  have power : (2 : ℚ) ^ exponent ≠ 0 := zpow_ne_zero _ two_ne_zero
  by_cases none : n = 0
  · subst none
    have zero : significand = 0 := by
      have product : (significand : ℚ) * 2 ^ exponent = 0 := by simpa [ratio] using same.symm
      exact_mod_cast (mul_eq_zero.mp product).resolve_right power
    rw [nearest, if_pos rfl, held.pattern_eq_zero_iff.mpr zero]
  obtain ⟨low, high⟩ := ratio_bounds none positive
  have unit := held.unit_eq same low high
  have below : (scaled n d (-((n.log2 : Int) - d.log2 - f.fraction - 1))).1 /
      (scaled n d (-((n.log2 : Int) - d.log2 - f.fraction - 1))).2 < Nat.pow 2 (f.fraction + 1) ↔
        ratio (n, d) < 2 ^ ((n.log2 : Int) - d.log2) := by
    have place : (2 : ℚ) ^ ((n.log2 : Int) - d.log2) =
        2 ^ (f.fraction + 1) * 2 ^ ((n.log2 : Int) - d.log2 - f.fraction - 1) := by
      rw [← zpow_natCast, ← zpow_add₀ two_ne_zero]
      congr 1
      omega
    rw [div_lt_iff_ratio_lt (scaled_pos positive _), Prod.mk.eta, ratio_scaled, zpow_neg,
      mul_inv_lt_iff₀ (by positivity), place]
    push_cast [Nat.pow_eq]
    rfl
  have whole : (scaled n d (-exponent)).1 = significand * (scaled n d (-exponent)).2 := by
    have divisor' : ((scaled n d (-exponent)).2 : ℚ) ≠ 0 := by
      exact_mod_cast Nat.ne_of_gt (scaled_pos positive _)
    have exact := ratio_scaled n d (-exponent)
    rw [same, zpow_neg, mul_assoc, mul_inv_cancel₀ power, mul_one, ratio, div_eq_iff divisor'] at exact
    exact_mod_cast exact
  rw [nearest, if_neg none]
  have next : (n.log2 : Int) - d.log2 - f.fraction - 1 + 1 = n.log2 - d.log2 - f.fraction := by
    omega
  simp only [below, next, unit]
  rw [whole, roundedQuotient_mul _ (scaled_pos positive _)]
  exact Nat.min_eq_left finite

/-- Each pattern holds one value. -/
theorem Holds.eq_of_pattern (held : f.Holds significand exponent) {significand' : Nat}
    {exponent' : Int} (held' : f.Holds significand' exponent')
    (same : f.pattern significand exponent = f.pattern significand' exponent') :
    significand = significand' ∧ exponent = exponent' := by
  have above {a a' : Nat} {b b' : Int} (first : f.Holds a b) (second : f.Holds a' b')
      (before : b < b') : f.pattern a b < f.pattern a' b' := by
    have fits := first.fits
    have full := second.full (Int.lt_of_le_of_lt first.low before)
    have low := first.low
    obtain ⟨places, later⟩ : ∃ places : Nat, (b' - f.least).toNat = (b - f.least).toNat + 1 + places :=
      ⟨(b' - b).toNat - 1, by omega⟩
    rw [pattern, pattern, later, Nat.add_mul, Nat.add_mul, Nat.one_mul]
    rw [Nat.pow_succ] at fits
    have := Nat.zero_le (places * 2 ^ f.fraction)
    omega
  rcases lt_trichotomy exponent exponent' with before | rfl | after
  · exact absurd same (Nat.ne_of_lt (above held held' before))
  · exact ⟨Nat.add_right_cancel same, rfl⟩
  · exact absurd same (Nat.ne_of_gt (above held' held after))

end Format

namespace Binary

variable {f g : Format} {negative : Bool} {magnitude : Nat}

theorem two_pow_width (f : Format) :
    2 ^ f.width = 2 ^ (f.exponent + f.fraction) + 2 ^ (f.exponent + f.fraction) := by
  rw [Format.width, Nat.add_assoc, Nat.add_comm, Nat.pow_succ, Nat.mul_two]

theorem toNat_ofMagnitude (bound : magnitude < 2 ^ (f.exponent + f.fraction)) :
    (ofMagnitude negative magnitude : Binary f).bits.toNat =
      if negative then 2 ^ (f.exponent + f.fraction) + magnitude else magnitude := by
  have width := two_pow_width f
  simp only [ofMagnitude, ofNat, BitVec.toNat_ofNat, Nat.pow_eq]
  apply Nat.mod_eq_of_lt
  split <;> omega

theorem magnitude_ofMagnitude (bound : magnitude < 2 ^ (f.exponent + f.fraction)) :
    (ofMagnitude negative magnitude : Binary f).magnitude = magnitude := by
  rw [Binary.magnitude, toNat_ofMagnitude bound, Nat.pow_eq]
  split
  · rw [Nat.add_mod_left, Nat.mod_eq_of_lt bound]
  · exact Nat.mod_eq_of_lt bound

theorem isNegative_ofMagnitude (bound : magnitude < 2 ^ (f.exponent + f.fraction)) :
    (ofMagnitude negative magnitude : Binary f).isNegative = negative := by
  rw [isNegative, toNat_ofMagnitude bound]
  have clear := Nat.testBit_lt_two_pow bound
  cases negative with
  | true => simp [Nat.testBit_two_pow_add_eq, clear]
  | false => simp [clear]

theorem ofMagnitude_eq (x : Binary f) : ofMagnitude x.isNegative x.magnitude = x := by
  have half : 0 < 2 ^ (f.exponent + f.fraction) := Nat.two_pow_pos _
  have bound : x.magnitude < 2 ^ (f.exponent + f.fraction) := Nat.mod_lt _ half
  have split := Nat.div_add_mod x.bits.toNat (2 ^ (f.exponent + f.fraction))
  have width := two_pow_width f
  have top : x.bits.toNat / 2 ^ (f.exponent + f.fraction) < 2 := by
    rw [Nat.div_lt_iff_lt_mul half, Nat.two_mul, ← width]
    exact x.bits.isLt
  have same : (ofMagnitude x.isNegative x.magnitude : Binary f).bits = x.bits := by
    apply BitVec.eq_of_toNat_eq
    rw [toNat_ofMagnitude bound, isNegative, Nat.testBit_eq_decide_div_mod_eq]
    have low : x.magnitude = x.bits.toNat % 2 ^ (f.exponent + f.fraction) := rfl
    rcases Nat.le_one_iff_eq_zero_or_eq_one.mp (Nat.le_of_lt_succ top) with clear | set
    · simp [clear] at split ⊢
      omega
    · simp [set] at split ⊢
      omega
  cases x
  exact congrArg Binary.mk same

theorem lt_of_lt_infinity (finite : magnitude < f.infinity) :
    magnitude < 2 ^ (f.exponent + f.fraction) := by
  refine finite.trans_le ?_
  rw [Nat.pow_add]
  exact Nat.mul_le_mul_right _ (Nat.sub_le _ _)

theorem reading_ofMagnitude {significand : Nat} {exponent : Int}
    (held : f.Holds significand exponent) (finite : f.pattern significand exponent < f.infinity) :
    (ofMagnitude negative (f.pattern significand exponent) : Binary f).reading =
      .finite negative significand exponent := by
  have bound := lt_of_lt_infinity finite
  have finite' : (ofMagnitude negative (f.pattern significand exponent) : Binary f).isFinite := by
    simpa [isFinite, magnitude_ofMagnitude bound] using finite
  obtain ⟨significand', exponent', read, held', same⟩ := reading_of_isFinite finite'
  rw [magnitude_ofMagnitude bound] at same
  obtain ⟨rfl, rfl⟩ := held.eq_of_pattern held' same
  rw [read, isNegative_ofMagnitude bound]

/-- A value that the other format holds as well is the same there. -/
theorem convert_of_reading {x : Binary f} {significand significand' : Nat} {exponent exponent' : Int}
    (read : x.reading = .finite negative significand exponent)
    (held : g.Holds significand' exponent') (finite : g.pattern significand' exponent' < g.infinity)
    (same : (significand : ℚ) * 2 ^ exponent = significand' * 2 ^ exponent') :
    x.convert g = ofMagnitude negative (g.pattern significand' exponent') := by
  have exact : ratio (scaled significand 1 exponent) = significand' * 2 ^ exponent' := by
    rw [ratio_scaled, ← same]
    simp [ratio]
  have positive : 0 < (scaled significand 1 exponent).2 := scaled_pos Nat.one_pos exponent
  have rounded := held.nearest_eq finite.le positive exact
  rw [convert, read]
  exact congrArg (ofMagnitude negative) rounded

/-- A significand of single precision is filled up with zeros. -/
theorem single_in_double {significand : Nat} {exponent : Int}
    (held : Format.single.Holds significand exponent)
    (finite : Format.single.pattern significand exponent < Format.single.infinity) :
    ∃ significand' exponent', Format.double.Holds significand' exponent' ∧
      Format.double.pattern significand' exponent' < Format.double.infinity ∧
        (significand : ℚ) * 2 ^ exponent = significand' * 2 ^ exponent' := by
  by_cases zero : significand = 0
  · subst zero
    exact ⟨0, Format.double.least, ⟨by decide, le_rfl, by simp⟩, by decide, by simp⟩
  have low := Nat.log2_self_le zero
  have high := Nat.lt_log2_self (n := significand)
  have few : significand.log2 < 24 := (Nat.log2_lt zero).mpr held.fits
  have bottom : -149 ≤ exponent := held.low
  have top : exponent < 106 := by
    have finite : significand + (exponent + 149).toNat * 2 ^ 23 < 255 * 2 ^ 23 := finite
    omega
  obtain ⟨zeros, fill⟩ : ∃ zeros, significand.log2 + zeros = 52 := ⟨52 - significand.log2, by omega⟩
  have wide : 2 ^ 52 ≤ significand * 2 ^ zeros := by
    rw [← fill, Nat.pow_add]
    exact Nat.mul_le_mul_right _ low
  have fits : significand * 2 ^ zeros < 2 ^ 53 := by
    have width : 2 ^ 53 = 2 ^ (significand.log2 + 1) * 2 ^ zeros := by
      rw [← Nat.pow_add]
      congr 1
      omega
    rw [width]
    exact Nat.mul_lt_mul_of_pos_right high (Nat.two_pow_pos _)
  refine ⟨significand * 2 ^ zeros, exponent - zeros, ⟨fits, ?_, fun _ => wide⟩, ?_, ?_⟩
  · change (-1074 : Int) ≤ exponent - zeros
    omega
  · change significand * 2 ^ zeros + (exponent - zeros + 1074).toNat * 2 ^ 52 < 2047 * 2 ^ 52
    omega
  · rw [zpow_sub₀ two_ne_zero, zpow_natCast]
    push_cast
    field_simp

/-- Single precision is part of double precision. -/
theorem convert_convert {x : Binary32} (finite : x.isFinite) :
    (x.convert .double).convert .single = x := by
  obtain ⟨significand, exponent, read, held, same⟩ := reading_of_isFinite finite
  have finite : Format.single.pattern significand exponent < Format.single.infinity := by
    rw [← same]
    simpa [isFinite] using finite
  obtain ⟨significand', exponent', held', finite', equal⟩ := single_in_double held finite
  have wide : (ofMagnitude x.isNegative (Format.double.pattern significand' exponent') :
      Binary64).reading = .finite x.isNegative significand' exponent' :=
    reading_ofMagnitude held' finite'
  rw [convert_of_reading read held' finite' equal, convert_of_reading wide held finite equal.symm,
    ← same, ofMagnitude_eq]

end Binary

end StatsRelay.Decimal
