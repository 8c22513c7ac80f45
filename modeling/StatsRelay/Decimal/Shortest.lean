import StatsRelay.Decimal.Binary

/-! The shortest decimal that reads back. A decimal reads back as a binary value when it lies in the
interval of reals that round to that value, ends included iff the value's significand is even. Of the
powers of ten whose multiples meet the interval the largest is taken, and of its multiples the one
nearest to the value. If any multiple lies in the interval then so does a neighbour of the value, so
only the two neighbours are tried. -/
namespace StatsRelay.Decimal

/-- `significand * 10 ^ exponent`. -/
structure Numeral where
  significand : Nat
  exponent : Int
deriving DecidableEq, Repr

/-- Which of two decimals that are equally near. -/
inductive Tie
  | toEven
  | up
deriving DecidableEq

/-- A positive value and the ends of its interval, as numerators over one denominator. -/
structure Interval where
  value : Nat
  low : Nat
  high : Nat
  denominator : Nat
  closed : Bool

namespace Interval

/-- Below a power of two the neighbours are half as far apart. -/
def ofFinite (f : Format) (significand : Nat) (exponent : Int) : Interval :=
  let narrow := significand = Nat.pow 2 f.fraction ∧ f.least < exponent
  let (unit, denominator) := scaled 1 1 (exponent - 2)
  { value := 4 * significand * unit
    low := (4 * significand - if narrow then 1 else 2) * unit
    high := (4 * significand + 2) * unit
    denominator
    closed := significand % 2 = 0 }

def inUnits (interval : Interval) (exponent : Int) : Interval :=
  let up := Nat.pow 10 (-exponent).toNat
  { interval with
    value := interval.value * up
    low := interval.low * up
    high := interval.high * up
    denominator := interval.denominator * Nat.pow 10 exponent.toNat }

def holds (interval : Interval) (n : Nat) : Bool :=
  let scaled := n * interval.denominator
  if interval.closed then interval.low ≤ scaled && scaled ≤ interval.high
  else interval.low < scaled && scaled < interval.high

def neighbour? (interval : Interval) (tie : Tie) : Option Nat :=
  let below := interval.value / interval.denominator
  let rest := interval.value % interval.denominator
  let above := if rest = 0 then below else below + 1
  match interval.holds below, interval.holds above with
  | false, false => none
  | true, false => some below
  | false, true => some above
  | true, true =>
    match compare (2 * rest) interval.denominator with
    | .lt => some below
    | .gt => some above
    | .eq => some <| match tie with
      | .toEven => if below % 2 = 0 then below else above
      | .up => above

def search (interval : Interval) (tie : Tie) : Nat → Int → Option Numeral
  | 0, _ => none
  | tries + 1, exponent =>
    match (interval.inUnits exponent).neighbour? tie with
    | some significand => some ⟨significand, exponent⟩
    | none => search interval tie tries (exponent - 1)

end Interval

/-- A power of ten above the value and at most two places from its first digit, found from the
position of the first bit with `1233 / 4096` for the logarithm of two. -/
def startExponent (significand : Nat) (exponent : Int) : Int :=
  Int.fdiv ((significand.log2 + exponent) * 1233) 4096 + 2

/-- Places in which every value of the format has a decimal that reads back. -/
def Format.places (f : Format) : Nat := (f.fraction + 1) * 1233 / 4096 + 2

def shortest (f : Format) (tie : Tie) (significand : Nat) (exponent : Int) : Numeral :=
  if significand = 0 then ⟨0, 0⟩
  else
    ((Interval.ofFinite f significand exponent).search tie (f.places + 3)
      (startExponent significand exponent)).getD ⟨significand, exponent⟩

end StatsRelay.Decimal
