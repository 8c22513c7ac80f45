import StatsRelay.Json.Value

/-! Number literals of JSON and the numbers they stand for. A literal without fraction and exponent
that fits sixty-four bits is an integer. Any other is a number of double precision, found in two
rounded steps: the leading digits that fit sixty-four bits, then one power of ten. -/
namespace StatsRelay.Json

open StatsRelay.Decimal

/-- The written parts, as digits; a part that is not written is empty. -/
structure Literal where
  negative : Bool
  whole : List Char
  fraction : List Char
  exponentNegative : Bool
  exponent : List Char
deriving DecidableEq

namespace Literal

def takeDigits (text : List Char) : List Char × List Char := text.span (·.isDigit)

/-- No digit may follow a leading zero. -/
def takeWhole (text : List Char) : Option (List Char × List Char) :=
  match takeDigits text with
  | ([], _) => none
  | ('0' :: _ :: _, _) => none
  | split => some split

def takeFraction : List Char → Option (List Char × List Char)
  | '.' :: rest => match takeDigits rest with
    | ([], _) => none
    | split => some split
  | text => some ([], text)

def takeExponent : List Char → Option (Bool × List Char × List Char)
  | [] => some (false, [], [])
  | mark :: rest =>
    if mark = 'e' ∨ mark = 'E' then
      let (negative, rest) := match rest with
        | '+' :: rest => (false, rest)
        | '-' :: rest => (true, rest)
        | _ => (false, rest)
      match takeDigits rest with
      | ([], _) => none
      | (digits, rest) => some (negative, digits, rest)
    else some (false, [], mark :: rest)

def take? (text : List Char) : Option (Literal × List Char) := do
  let (negative, text) := match text with
    | '-' :: rest => (true, rest)
    | _ => (false, text)
  let (whole, text) ← takeWhole text
  let (fraction, text) ← takeFraction text
  let (exponentNegative, exponent, text) ← takeExponent text
  return (⟨negative, whole, fraction, exponentNegative, exponent⟩, text)

def value (digits : List Char) : Nat := Nat.ofDigitChars 10 digits 0

/-- The digits that can be appended before the number would need more than sixty-four bits: the
number, how many digits it took, and how many were left. -/
def accumulate (start : Nat) : List Char → Nat × Nat × Nat
  | [] => (start, 0, 0)
  | digit :: rest =>
    let next := start * 10 + (digit.toNat - '0'.toNat)
    if next < UInt64.size then
      let (significand, taken, left) := accumulate next rest
      (significand, taken + 1, left)
    else (start, 0, rest.length + 1)

def power (exponent : Nat) : Binary64 := .ofRatio false (Nat.pow 10 exponent) 1

/-- Divides by a power of ten. Above 308 the power is taken in steps, and three of them leave
nothing of any number. -/
def divideByPower (x : Binary64) (exponent : Nat) : Binary64 :=
  let steps := min ((exponent - 1) / 308) 3
  let x := Nat.repeat (·.div (power 308)) steps x
  x.div (power (min (exponent - 308 * steps) 308))

/-- The exponent may be any integer; too large a number has no value. -/
def scale? (significand : Nat) (exponent : Int) : Option Binary64 :=
  let x : Binary64 := .ofRatio false significand 1
  if exponent < 0 then some (divideByPower x exponent.natAbs)
  else if exponent ≤ 308 then
    let scaled := x.mul (power exponent.natAbs)
    if scaled.isInfinite then none else some scaled
  else if significand = 0 then some x else none

def exponentLimit : Nat := 2147483647

def double? (literal : Literal) : Option Binary64 := do
  let (significand, _, dropped) := accumulate 0 literal.whole
  let (significand, taken, _) := accumulate significand literal.fraction
  let written := value literal.exponent
  let signed : Int := if literal.exponentNegative then -written else written
  let magnitude ←
    if written ≤ exponentLimit then scale? significand (signed + dropped - taken)
    else if literal.exponentNegative ∨ significand = 0 then some (.ofInt 0)
    else none
  return if literal.negative then magnitude.negate else magnitude

/-- An integer without fraction or exponent, if sixty-four bits hold it. Zero with a sign is none. -/
def integer? (literal : Literal) : Option Int :=
  let magnitude := value literal.whole
  if literal.fraction ≠ [] ∨ literal.exponent ≠ [] then none
  else if literal.negative then
    if 0 < magnitude ∧ magnitude ≤ 9223372036854775808 then some (-magnitude) else none
  else if magnitude < UInt64.size then some magnitude else none

def number? (literal : Literal) : Option Number :=
  match literal.integer? with
  | some value => some (.integer value)
  | none => literal.double?.map .double

end Literal

end StatsRelay.Json
