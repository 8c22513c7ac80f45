import Mathlib.Data.List.TakeDrop
import StatsRelay.Json.Literal
import StatsRelay.Json.Writer

/-! Literals and the numbers that they stand for. A well formed literal is read back whole from its
spelling, as long as what follows cannot be taken for more of it; no other literal is read. -/
namespace StatsRelay.Json.Literal

/-- A literal is a natural number just when it is written as one and sixty-four bits hold it. -/
theorem number?_eq_natural_iff (literal : Literal) (n : Nat) :
    literal.number? = some (.integer n) ↔
      literal.negative = false ∧ literal.fraction = [] ∧ literal.exponent = [] ∧
        value literal.whole = n ∧ n < UInt64.size := by
  have integers : literal.number? = some (.integer n) ↔ literal.integer? = some (n : Int) := by
    unfold number?
    cases literal.integer? <;> simp
  rw [integers]
  unfold integer?
  by_cases written : literal.fraction ≠ [] ∨ literal.exponent ≠ []
  · simp only [written, if_true]
    grind
  · simp only [written, if_false]
    grind

/-- The parts are made of digits, and the whole part has no leading zero. -/
structure WellFormed (literal : Literal) : Prop where
  whole : ∀ c ∈ literal.whole, c.isDigit
  filled : literal.whole ≠ []
  leading : ∀ rest, literal.whole = '0' :: rest → rest = []
  fraction : ∀ c ∈ literal.fraction, c.isDigit
  exponent : ∀ c ∈ literal.exponent, c.isDigit
  unsigned : literal.exponent = [] → literal.exponentNegative = false

def spellFraction (digits : List Char) : List Char := if digits = [] then [] else '.' :: digits

def spellExponent (negative : Bool) (digits : List Char) : List Char :=
  if digits = [] then [] else 'e' :: (if negative then '-' else '+') :: digits

def spell (literal : Literal) : List Char :=
  (if literal.negative then ['-'] else []) ++ literal.whole ++ spellFraction literal.fraction ++
    spellExponent literal.exponentNegative literal.exponent

def Ends (rest : List Char) : Prop :=
  ∀ c ∈ rest.head?, c.isDigit = false ∧ c ≠ '.' ∧ c ≠ 'e' ∧ c ≠ 'E'

theorem ends_nil : Ends [] := by simp [Ends]

theorem takeDigits_append {digits rest : List Char} (each : ∀ c ∈ digits, c.isDigit = true)
    (stop : ∀ c ∈ rest.head?, c.isDigit = false) :
    takeDigits (digits ++ rest) = (digits, rest) := by
  rw [takeDigits, List.span_eq_takeWhile_dropWhile, List.takeWhile_append_of_pos each,
    List.dropWhile_append_of_pos each]
  cases rest with
  | nil => simp
  | cons c rest => simp [stop c rfl]

theorem takeWhole_append {digits rest : List Char} (each : ∀ c ∈ digits, c.isDigit = true)
    (nonempty : digits ≠ []) (leading : ∀ others, digits = '0' :: others → others = [])
    (stop : ∀ c ∈ rest.head?, c.isDigit = false) :
    takeWhole (digits ++ rest) = some (digits, rest) := by
  unfold takeWhole
  rw [takeDigits_append each stop]
  split
  · rename_i same
    exact absurd (congrArg Prod.fst same) nonempty
  · rename_i same
    exact absurd (leading _ (congrArg Prod.fst same)) (List.cons_ne_nil _ _)
  · rfl

theorem takeFraction_append {digits rest : List Char} (each : ∀ c ∈ digits, c.isDigit = true)
    (stop : ∀ c ∈ rest.head?, c.isDigit = false ∧ c ≠ '.') :
    takeFraction (spellFraction digits ++ rest) = some (digits, rest) := by
  unfold spellFraction
  split
  · rename_i none
    subst none
    cases rest with
    | nil => rfl
    | cons c rest =>
      have other : c ≠ '.' := (stop c rfl).2
      unfold takeFraction
      split
      · rename_i same
        exact absurd (List.cons.inj same).1 other
      · rfl
  · rename_i some
    rw [List.cons_append, takeFraction, takeDigits_append each fun c first => (stop c first).1]
    split
    · rename_i same
      exact absurd (congrArg Prod.fst same) some
    · rfl

theorem takeExponent_append {negative : Bool} {digits rest : List Char}
    (each : ∀ c ∈ digits, c.isDigit = true) (unsigned : digits = [] → negative = false)
    (ends : Ends rest) :
    takeExponent (spellExponent negative digits ++ rest) = some (negative, digits, rest) := by
  unfold spellExponent
  split
  · rename_i none
    rw [unsigned none, none]
    cases rest with
    | nil => rfl
    | cons c rest =>
      obtain ⟨_, _, small, large⟩ := ends c rfl
      have test : ¬(c = 'e' ∨ c = 'E') := by simp [small, large]
      simp only [List.nil_append, takeExponent, test, if_false]
  · rename_i nonempty
    have read := takeDigits_append each fun c first => (ends c first).1
    obtain ⟨first, others, rfl⟩ := List.exists_cons_of_ne_nil nonempty
    rw [List.cons_append] at read
    cases negative with
    | true => simp [takeExponent, read]
    | false => simp [takeExponent, read]

private theorem head?_spellExponent (negative : Bool) (digits : List Char) {rest : List Char}
    (ends : Ends rest) :
    ∀ c ∈ (spellExponent negative digits ++ rest).head?, c.isDigit = false ∧ c ≠ '.' := by
  unfold spellExponent
  split
  · intro c first
    obtain ⟨digit, point, _⟩ := ends c first
    exact ⟨digit, point⟩
  · intro c first
    cases first
    decide

private theorem head?_spellFraction (digits : List Char) {rest : List Char}
    (stop : ∀ c ∈ rest.head?, c.isDigit = false) :
    ∀ c ∈ (spellFraction digits ++ rest).head?, c.isDigit = false := by
  unfold spellFraction
  split
  · exact stop
  · intro c first
    cases first
    decide

/-- A literal is taken from its spelling, up to where it ends. -/
theorem take?_spell {literal : Literal} (formed : literal.WellFormed) {rest : List Char}
    (ends : Ends rest) : take? (literal.spell ++ rest) = some (literal, rest) := by
  have exponentStop := head?_spellExponent literal.exponentNegative literal.exponent ends
  have fractionStop := head?_spellFraction literal.fraction fun c first => (exponentStop c first).1
  have whole := takeWhole_append formed.whole formed.filled formed.leading fractionStop
  have fraction := takeFraction_append formed.fraction exponentStop
  have exponent := takeExponent_append formed.exponent formed.unsigned ends
  obtain ⟨negative, _ | ⟨first, others⟩, _, _, _⟩ := literal
  · exact absurd rfl formed.filled
  have apart : first ≠ '-' := by
    rintro rfl
    exact absurd (formed.whole _ List.mem_cons_self) (by decide)
  simp only [List.cons_append] at whole
  cases negative with
  | true => simp [take?, spell, whole, fraction, exponent]
  | false => simp [take?, spell, apart, whole, fraction, exponent]

theorem isDigit_of_takeDigits {text digits rest : List Char}
    (taken : takeDigits text = (digits, rest)) : ∀ c ∈ digits, c.isDigit = true := by
  rw [takeDigits, List.span_eq_takeWhile_dropWhile] at taken
  cases taken
  exact List.all_eq_true.mp List.all_takeWhile

theorem of_takeWhole {text whole rest : List Char} (taken : takeWhole text = some (whole, rest)) :
    (∀ c ∈ whole, c.isDigit = true) ∧ whole ≠ [] ∧
      ∀ others, whole = '0' :: others → others = [] := by
  unfold takeWhole at taken
  split at taken
  · cases taken
  · cases taken
  · rename_i nonempty leading
    have digits : takeDigits text = (whole, rest) := Option.some.inj taken
    refine ⟨isDigit_of_takeDigits digits, ?_, ?_⟩
    · rintro rfl
      exact nonempty _ digits
    · rintro (_ | ⟨next, others⟩) rfl
      · rfl
      · exact absurd digits (leading _ _ _)

theorem of_takeFraction {text fraction rest : List Char}
    (taken : takeFraction text = some (fraction, rest)) : ∀ c ∈ fraction, c.isDigit = true := by
  unfold takeFraction at taken
  split at taken
  · split at taken
    · cases taken
    · exact isDigit_of_takeDigits (Option.some.inj taken)
  · cases taken
    exact List.forall_mem_nil _

theorem of_takeExponent {text exponent rest : List Char} {negative : Bool}
    (taken : takeExponent text = some (negative, exponent, rest)) :
    (∀ c ∈ exponent, c.isDigit = true) ∧ (exponent = [] → negative = false) := by
  unfold takeExponent at taken
  split at taken
  · cases taken
    exact ⟨List.forall_mem_nil _, fun _ => rfl⟩
  · split at taken
    · dsimp only at taken
      split at taken
      · cases taken
      · rename_i nonempty found
        cases taken
        exact ⟨isDigit_of_takeDigits found, fun none => absurd none nonempty⟩
    · cases taken
      exact ⟨List.forall_mem_nil _, fun _ => rfl⟩

/-- What is taken is spelled by the rules. -/
theorem wellFormed_of_take? {text rest : List Char} {literal : Literal}
    (taken : take? text = some (literal, rest)) : literal.WellFormed := by
  simp only [take?, Option.bind_eq_bind, Option.bind_eq_some_iff] at taken
  obtain ⟨⟨whole, text⟩, first, ⟨fraction, text⟩, second, ⟨negative, exponent, text⟩, third,
    same⟩ := taken
  cases same
  obtain ⟨digits, nonempty, leading⟩ := of_takeWhole first
  obtain ⟨digits', unsigned⟩ := of_takeExponent third
  exact ⟨digits, nonempty, leading, of_takeFraction second, digits', unsigned⟩

end Literal

def Number.Legible (number : Number) : Prop :=
  ∃ literal : Literal, literal.WellFormed ∧ literal.spell = number.write ∧
    literal.number? = some number

theorem toDigits_leading {n : Nat} {rest : List Char} (zero : Nat.toDigits 10 n = '0' :: rest) :
    rest = [] := by
  induction n using Nat.strongRecOn generalizing rest with
  | _ n ih =>
    by_cases small : n < 10
    · rw [Nat.toDigits_of_lt_base small] at zero
      exact (List.cons.inj zero).2.symm
    · rw [Nat.toDigits_of_base_le (by decide) (by omega)] at zero
      cases digits : Nat.toDigits 10 (n / 10) with
      | nil => exact absurd digits Nat.toDigits_ne_nil
      | cons first others =>
        rw [digits, List.cons_append] at zero
        obtain ⟨rfl, _⟩ := List.cons.inj zero
        obtain rfl := ih (n / 10) (by omega) digits
        have value := @Nat.ofDigitChars_toDigits 10 (n / 10) (by decide) (by decide)
        rw [digits] at value
        have : n / 10 = 0 := value.symm
        omega

def integerLiteral (n : Int) : Literal := ⟨n < 0, Nat.toDigits 10 n.natAbs, [], false, []⟩

theorem integerLiteral_wellFormed (n : Int) : (integerLiteral n).WellFormed where
  whole := fun _ digit_mem => Nat.isDigit_of_mem_toDigits (by decide) (by decide) digit_mem
  filled := Nat.toDigits_ne_nil
  leading := fun _ => toDigits_leading
  fraction := by simp [integerLiteral]
  exponent := by simp [integerLiteral]
  unsigned := fun _ => rfl

theorem spell_integerLiteral (n : Int) : (integerLiteral n).spell = writeInteger n := by
  simp [integerLiteral, Literal.spell, Literal.spellFraction, Literal.spellExponent, writeInteger]

/-- Integers of sixty-four bits are read back. -/
theorem Number.integer_legible {n : Int} (low : -9223372036854775808 ≤ n)
    (high : n < 18446744073709551616) : (Number.integer n).Legible := by
  have value : Literal.value (Nat.toDigits 10 n.natAbs) = n.natAbs :=
    Nat.ofDigitChars_toDigits (by decide) (by decide)
  refine ⟨integerLiteral n, integerLiteral_wellFormed n, spell_integerLiteral n, ?_⟩
  unfold Literal.number? Literal.integer? integerLiteral
  have size : UInt64.size = 18446744073709551616 := rfl
  rw [value]
  generalize absolute : n.natAbs = m
  by_cases negative : n < 0
  · obtain rfl : n = -(m : Int) := by omega
    have bounds : 0 < m ∧ m ≤ 9223372036854775808 := by omega
    simp [bounds]
  · obtain rfl : n = (m : Int) := by omega
    have bound : m < UInt64.size := by omega
    simp [negative, bound]

end StatsRelay.Json
