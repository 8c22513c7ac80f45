import StatsRelay.Decimal.Shortest

/-! Writing a decimal out. A layout says which values are written with an exponent, whether a whole
number keeps a fraction, and which of two equally near decimals is written. -/
namespace StatsRelay.Decimal

structure Layout where
  /-- The powers of ten of the first digit for which no exponent is written; none is a bound. -/
  plainFrom : Option Int
  plainTo : Option Int
  /-- A whole number ends in a point and a zero. -/
  wholeFraction : Bool
  tie : Tie

namespace Layout

def isPlain (layout : Layout) (power : Int) : Bool :=
  layout.plainFrom.all (· ≤ power) && layout.plainTo.all (power ≤ ·)

def zeros (count : Nat) : List Char := List.replicate count '0'

def plain (layout : Layout) (digits : List Char) (exponent : Int) : List Char :=
  let whole := digits.length + exponent
  if 0 ≤ exponent then
    digits ++ zeros exponent.toNat ++ if layout.wholeFraction then ['.', '0'] else []
  else if 0 < whole then digits.take whole.toNat ++ '.' :: digits.drop whole.toNat
  else '0' :: '.' :: zeros (-whole).toNat ++ digits

def scientific (digits : List Char) (power : Int) : List Char :=
  let mantissa := match digits with
    | [] => []
    | first :: [] => [first]
    | first :: rest => first :: '.' :: rest
  mantissa ++ 'e' :: (if power < 0 then '-' else '+') :: Nat.toDigits 10 power.natAbs

def writeNumeral (layout : Layout) (value : Numeral) : List Char :=
  let digits := Nat.toDigits 10 value.significand
  let power := digits.length - 1 + value.exponent
  if layout.isPlain power then layout.plain digits value.exponent else scientific digits power

def writeFinite (layout : Layout) (f : Format) (negative : Bool) (significand : Nat)
    (exponent : Int) : List Char :=
  (if negative then ['-'] else []) ++
    layout.writeNumeral (shortest f layout.tie significand exponent)

end Layout

/-- Numbers in messages and plain text: every digit is written out. -/
def displayLayout : Layout := ⟨none, none, false, .up⟩

namespace Binary

variable {f : Format}

def display (x : Binary f) : String :=
  match x.reading with
  | .nan => "NaN"
  | .infinite negative => if negative then "-inf" else "inf"
  | .finite negative significand exponent =>
    .ofList (displayLayout.writeFinite f negative significand exponent)

end Binary

end StatsRelay.Decimal
