/-! Binary floating-point numbers as bit patterns. A pattern stands for an infinity, for no number, or
for an exact dyadic value; each operation is computed exactly and rounded once, to the nearest
pattern and on a tie to the even one. -/
namespace StatsRelay.Decimal

structure Format where
  /-- Significand bits that the pattern holds. -/
  fraction : Nat
  exponent : Nat
deriving DecidableEq

namespace Format

@[reducible] def single : Format := ⟨23, 8⟩
@[reducible] def double : Format := ⟨52, 11⟩

@[reducible] def width (f : Format) : Nat := 1 + f.exponent + f.fraction

/-- The least positive value is two to this power. -/
def least (f : Format) : Int := 2 - (Nat.pow 2 (f.exponent - 1) : Nat) - f.fraction

def infinity (f : Format) : Nat := (Nat.pow 2 f.exponent - 1) * Nat.pow 2 f.fraction

end Format

/-- What a pattern stands for; a finite value is `significand * 2 ^ exponent`. -/
inductive Reading
  | nan
  | infinite (negative : Bool)
  | finite (negative : Bool) (significand : Nat) (exponent : Int)
deriving DecidableEq

structure Binary (f : Format) where
  bits : BitVec f.width
deriving DecidableEq

abbrev Binary32 := Binary .single
abbrev Binary64 := Binary .double

namespace Binary

variable {f : Format}

instance : Inhabited (Binary f) := ⟨⟨0⟩⟩

def ofNat (bits : Nat) : Binary f := ⟨.ofNat _ bits⟩

def isNegative (x : Binary f) : Bool := x.bits.toNat.testBit (f.exponent + f.fraction)

def magnitude (x : Binary f) : Nat := x.bits.toNat % Nat.pow 2 (f.exponent + f.fraction)

def ofMagnitude (negative : Bool) (magnitude : Nat) : Binary f :=
  ofNat (if negative then Nat.pow 2 (f.exponent + f.fraction) + magnitude else magnitude)

def infinite (negative : Bool) : Binary f := ofMagnitude negative f.infinity

def nan : Binary f := ofNat (f.infinity + Nat.pow 2 (f.fraction - 1))

def quiet (x : Binary f) : Binary f := ⟨x.bits ||| .ofNat _ (Nat.pow 2 (f.fraction - 1))⟩

def reading (x : Binary f) : Reading :=
  let field := x.magnitude / Nat.pow 2 f.fraction
  let low := x.magnitude % Nat.pow 2 f.fraction
  if f.infinity < x.magnitude then .nan
  else if x.magnitude = f.infinity then .infinite x.isNegative
  else if field = 0 then .finite x.isNegative low f.least
  else .finite x.isNegative (low + Nat.pow 2 f.fraction) (f.least + field - 1)

def isFinite (x : Binary f) : Bool := x.magnitude < f.infinity

def isInfinite (x : Binary f) : Bool := x.magnitude = f.infinity

def isNaN (x : Binary f) : Bool := f.infinity < x.magnitude

def isZero (x : Binary f) : Bool := x.magnitude = 0

/-- Above zero; an infinity is, what is no number is not. -/
def isPositive (x : Binary f) : Bool := !x.isNegative && !x.isZero && !x.isNaN

def negate (x : Binary f) : Binary f := ofMagnitude (!x.isNegative) x.magnitude

end Binary

/-- The quotient, rounded to the nearest whole number and on a tie to the even one. -/
def roundedQuotient (numerator denominator : Nat) : Nat :=
  let quotient := numerator / denominator
  match compare (2 * (numerator % denominator)) denominator with
  | .lt => quotient
  | .eq => quotient + quotient % 2
  | .gt => quotient + 1

/-- `x * 2 ^ shift` for a ratio `x`, again as a ratio. -/
def scaled (numerator denominator : Nat) (shift : Int) : Nat × Nat :=
  (numerator * Nat.pow 2 shift.toNat, denominator * Nat.pow 2 (-shift).toNat)

namespace Format

/-- The magnitude nearest to a ratio. Counting in units of the last place, the pattern of a value is
its significand plus `2 ^ fraction` for each exponent above the least; a significand that rounds up
to the next power of two is carried into the exponent by the same sum. Zero has no first digit to
start from. -/
def nearest (f : Format) (numerator denominator : Nat) : Nat :=
  if numerator = 0 then 0 else
  let guess : Int := numerator.log2 - denominator.log2 - f.fraction - 1
  let (n, d) := scaled numerator denominator (-guess)
  let unit := max (if n / d < Nat.pow 2 (f.fraction + 1) then guess else guess + 1) f.least
  let (n, d) := scaled numerator denominator (-unit)
  min (roundedQuotient n d + (unit - f.least).toNat * Nat.pow 2 f.fraction) f.infinity

end Format

namespace Binary

variable {f : Format}

def ofRatio (negative : Bool) (numerator denominator : Nat) : Binary f :=
  ofMagnitude negative (f.nearest numerator denominator)

def ofDyadic (negative : Bool) (significand : Nat) (exponent : Int) : Binary f :=
  let (n, d) := scaled significand 1 exponent
  ofRatio negative n d

def ofInt (value : Int) : Binary f := ofRatio (value < 0) value.natAbs 1

def convert (g : Format) (x : Binary f) : Binary g :=
  match x.reading with
  | .nan => nan
  | .infinite negative => infinite negative
  | .finite negative significand exponent => ofDyadic negative significand exponent

/-- The signed significand of a finite value at an exponent that is not above its own. -/
def aligned (negative : Bool) (significand : Nat) (exponent unit : Int) : Int :=
  let m : Int := (significand * Nat.pow 2 (exponent - unit).toNat : Nat)
  if negative then -m else m

/-- `a * b + c`, rounded once. A sum that is zero is negative only if both terms are. -/
def fusedMultiplyAdd (a b c : Binary f) : Binary f :=
  match a.reading, b.reading, c.reading with
  | .nan, _, _ => a.quiet
  | _, .nan, _ => b.quiet
  | _, _, .nan => c.quiet
  | .finite na ma ea, .finite nb mb eb, .finite nc mc ec =>
    let unit := min (ea + eb) ec
    let sum := aligned (na != nb) (ma * mb) (ea + eb) unit + aligned nc mc ec unit
    if sum = 0 then ofMagnitude ((na != nb) && nc) 0
    else ofDyadic (sum < 0) sum.natAbs unit
  | .finite _ _ _, .finite _ _ _, .infinite n => infinite n
  | .infinite na, rb, rc => product na b.isNegative (rb = .infinite b.isNegative || !b.isZero) rc
  | ra, .infinite nb, rc => product a.isNegative nb (ra = .infinite a.isNegative || !a.isZero) rc
where
  /-- An infinite product plus a third term. -/
  product (na nb defined : Bool) : Reading → Binary f
    | .infinite n => if defined && (na != nb) == n then infinite n else nan
    | _ => if defined then infinite (na != nb) else nan

/-- Adding a negative zero changes nothing. -/
def mul (a b : Binary f) : Binary f := fusedMultiplyAdd a b (ofMagnitude true 0)

def add (a b : Binary f) : Binary f := fusedMultiplyAdd a (ofInt 1) b

def div (a b : Binary f) : Binary f :=
  match a.reading, b.reading with
  | .nan, _ => a.quiet
  | _, .nan => b.quiet
  | .infinite _, .infinite _ => nan
  | .infinite na, .finite nb _ _ => infinite (na != nb)
  | .finite na _ _, .infinite nb => ofMagnitude (na != nb) 0
  | .finite na ma ea, .finite nb mb eb =>
    if mb = 0 then if ma = 0 then nan else infinite (na != nb)
    else
      let (n, d) := scaled ma mb (ea - eb)
      ofRatio (na != nb) n d

/-- Order as numbers: the two zeros are equal, and what is no number is below nothing. -/
def lt (a b : Binary f) : Bool :=
  !a.isNaN && !b.isNaN && decide (position a < position b)
where
  /-- Magnitudes order the finite values of one sign and put infinity above them. -/
  position (x : Binary f) : Int := if x.isNegative then -x.magnitude else x.magnitude

/-- Equality under the order that also has what is no number as one last element. -/
def sameOrdered (a b : Binary f) : Bool :=
  if a.isNaN || b.isNaN then a.isNaN && b.isNaN else lt.position a == lt.position b

end Binary

end StatsRelay.Decimal
