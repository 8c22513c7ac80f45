import StatsRelay.Toml.Quoted

/-! Unquoted values of TOML: truth values, integers, floating-point numbers, dates and times of day.
No field of this library holds a floating-point number, so one is read without its value. -/
namespace StatsRelay.Toml

def grouped? (isDigit : Char → Bool) : List Char → Option (List Char)
  | [] => none
  | [c] => if isDigit c then some [c] else none
  | c :: '_' :: rest => if isDigit c then (c :: ·) <$> grouped? isDigit rest else none
  | c :: rest => if isDigit c then (c :: ·) <$> grouped? isDigit rest else none

def decimal? (text : List Char) : Option (List Char) :=
  match grouped? (·.isDigit) text with
  | some ('0' :: _ :: _) => none
  | digits => digits

def splitSign : List Char → Option Bool × List Char
  | '+' :: rest => (some false, rest)
  | '-' :: rest => (some true, rest)
  | text => (none, text)

def radixValue? (radix : Nat) (text : List Char) : Option Int := do
  let isDigit (c : Char) := (Json.hexValue? c).any (· < radix)
  let digits ← grouped? isDigit text
  return digits.foldl (fun value c => value * radix + ((Json.hexValue? c).getD 0 : Nat)) 0

def integer? (text : List Char) : Option Int :=
  match text with
  | '0' :: 'x' :: rest => radixValue? 16 rest
  | '0' :: 'o' :: rest => radixValue? 8 rest
  | '0' :: 'b' :: rest => radixValue? 2 rest
  | _ => do
    let (sign, text) := splitSign text
    let digits ← decimal? text
    let magnitude : Int := Nat.ofDigitChars 10 digits 0
    return if sign = some true then -magnitude else magnitude

def isGroupChar (c : Char) : Bool := c.isDigit || c = '_'

def isExponent : List Char → Bool
  | mark :: rest => (mark = 'e' || mark = 'E') && (grouped? (·.isDigit) (splitSign rest).2).isSome
  | [] => false

def isFloat (text : List Char) : Bool :=
  let text := (splitSign text).2
  let (whole, rest) := text.span isGroupChar
  text = ['i', 'n', 'f'] || text = ['n', 'a', 'n'] ||
    (decimal? whole).isSome && match rest with
      | '.' :: rest =>
        let (fraction, rest) := rest.span isGroupChar
        (grouped? (·.isDigit) fraction).isSome && (rest.isEmpty || isExponent rest)
      | rest => isExponent rest

def takeNumber (count : Nat) (text : List Char) : Option (Nat × List Char) :=
  let digits := text.take count
  if digits.length = count ∧ digits.all (·.isDigit) then
    some (Nat.ofDigitChars 10 digits 0, text.drop count)
  else none

def takeChar (c : Char) : List Char → Option (List Char)
  | d :: rest => if c = d then some rest else none
  | [] => none

def daysIn (year month : Nat) : Nat :=
  if month = 2 then if (year % 4 = 0 ∧ year % 100 ≠ 0) ∨ year % 400 = 0 then 29 else 28
  else if month ∈ [4, 6, 9, 11] then 30 else 31

def takeDate (text : List Char) : Option (List Char) := do
  let (year, text) ← takeNumber 4 text
  let (month, text) ← takeNumber 2 (← takeChar '-' text)
  let (day, text) ← takeNumber 2 (← takeChar '-' text)
  if 1 ≤ month ∧ month ≤ 12 ∧ 1 ≤ day ∧ day ≤ daysIn year month then return text else none

def takeClock (text : List Char) : Option (List Char) := do
  let (hour, text) ← takeNumber 2 text
  let (minute, text) ← takeNumber 2 (← takeChar ':' text)
  if hour ≤ 23 ∧ minute ≤ 59 then return text else none

/-- A time of day; the second may be left out, and may be a leap second. -/
def takeTime (text : List Char) : Option (List Char) := do
  match ← takeClock text with
  | ':' :: text =>
    let (second, text) ← takeNumber 2 text
    if 60 < second then none
    match text with
    | '.' :: text =>
      let (fraction, text) := text.span (·.isDigit)
      if fraction.isEmpty then none else return text
    | text => return text
  | text => return text

def isOffset : List Char → Bool
  | [] => true
  | ['Z'] => true
  | ['z'] => true
  | sign :: rest => (sign = '+' || sign = '-') && takeClock rest = some []

def isMoment (text : List Char) : Bool :=
  takeTime text = some [] || match takeDate text with
    | none => false
    | some [] => true
    | some (mark :: rest) =>
      (mark = 'T' || mark = 't' || mark = ' ') && (takeTime rest).any isOffset

def isBareChar (c : Char) : Bool :=
  c.isAlphanum || c = '_' || c = '-' || c = '+' || c = '.' || c = ':'

/-- The unquoted word at the start of a text. A date and a time of day may be one word although a
space stands between them. -/
def takeBare (text : List Char) : List Char × List Char :=
  let (word, rest) := text.span isBareChar
  match takeDate word, rest with
  | some [], ' ' :: digit :: more =>
    if digit.isDigit then
      let (time, rest) := (digit :: more).span isBareChar
      (word ++ ' ' :: time, rest)
    else (word, rest)
  | _, _ => (word, rest)

def bareDocument? (word : List Char) : Option Document :=
  if word = ['t', 'r', 'u', 'e'] then some (.bool true)
  else if word = ['f', 'a', 'l', 's', 'e'] then some (.bool false)
  else match integer? word with
    | some value => some (.number (some (.integer value)))
    | none =>
      if isFloat word then some (.number none)
      else if isMoment word then some .moment
      else none

end StatsRelay.Toml
