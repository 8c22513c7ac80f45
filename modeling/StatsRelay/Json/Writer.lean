import StatsRelay.Json.Value
import StatsRelay.Decimal.Layout

/-! Writing JSON, on one line or indented by two spaces. Only the quotation mark, the backslash and
the control characters below the space are escaped. A number that is not finite is written as null. -/
namespace StatsRelay.Json

open StatsRelay.Decimal

def singleLayout : Layout := ⟨some (-6), some 12, true, .toEven⟩
def doubleLayout : Layout := ⟨some (-5), some 15, true, .toEven⟩

def writeInteger (value : Int) : List Char :=
  (if value < 0 then ['-'] else []) ++ Nat.toDigits 10 value.natAbs

def writeBinary {f : Format} (layout : Layout) (value : Binary f) : List Char :=
  match value.reading with
  | .finite negative significand exponent => layout.writeFinite f negative significand exponent
  | _ => ['n', 'u', 'l', 'l']

def Number.write : Number → List Char
  | .integer value => writeInteger value
  | .single value => writeBinary singleLayout value
  | .double value => writeBinary doubleLayout value

def hexDigit (value : Nat) : Char := Nat.digitChar value

def escape (c : Char) : List Char :=
  if c = '"' then ['\\', '"']
  else if c = '\\' then ['\\', '\\']
  else if c = '\x08' then ['\\', 'b']
  else if c = '\x0c' then ['\\', 'f']
  else if c = '\n' then ['\\', 'n']
  else if c = '\r' then ['\\', 'r']
  else if c = '\t' then ['\\', 't']
  else if c.toNat < 0x20 then
    ['\\', 'u', '0', '0', hexDigit (c.toNat / 16), hexDigit (c.toNat % 16)]
  else [c]

def writeString (text : String) : List Char := '"' :: text.toList.flatMap escape ++ ['"']

namespace Value

mutual

def write : Value → List Char
  | null => ['n', 'u', 'l', 'l']
  | bool true => ['t', 'r', 'u', 'e']
  | bool false => ['f', 'a', 'l', 's', 'e']
  | number n => n.write
  | string text => writeString text
  | array [] => ['[', ']']
  | array (item :: rest) => '[' :: write item ++ writeItems rest
  | object [] => ['\x7b', '\x7d']
  | object ((name, value) :: rest) =>
    '\x7b' :: writeString name ++ ':' :: write value ++ writeMembers rest

def writeItems : List Value → List Char
  | [] => [']']
  | item :: rest => ',' :: write item ++ writeItems rest

def writeMembers : List (String × Value) → List Char
  | [] => ['\x7d']
  | (name, value) :: rest => ',' :: writeString name ++ ':' :: write value ++ writeMembers rest

end

def newLine (level : Nat) : List Char := '\n' :: List.replicate (2 * level) ' '

mutual

def writeIndented (level : Nat) : Value → List Char
  | null => ['n', 'u', 'l', 'l']
  | bool true => ['t', 'r', 'u', 'e']
  | bool false => ['f', 'a', 'l', 's', 'e']
  | number n => n.write
  | string text => writeString text
  | array [] => ['[', ']']
  | array (item :: rest) =>
    '[' :: newLine (level + 1) ++ writeIndented (level + 1) item ++ indentedItems level rest
  | object [] => ['\x7b', '\x7d']
  | object ((name, value) :: rest) =>
    '\x7b' :: newLine (level + 1) ++ writeString name ++ ':' :: ' ' ::
      writeIndented (level + 1) value ++ indentedMembers level rest

def indentedItems (level : Nat) : List Value → List Char
  | [] => newLine level ++ [']']
  | item :: rest =>
    ',' :: newLine (level + 1) ++ writeIndented (level + 1) item ++ indentedItems level rest

def indentedMembers (level : Nat) : List (String × Value) → List Char
  | [] => newLine level ++ ['\x7d']
  | (name, value) :: rest =>
    ',' :: newLine (level + 1) ++ writeString name ++ ':' :: ' ' ::
      writeIndented (level + 1) value ++ indentedMembers level rest

end

def compact (value : Value) : String := .ofList value.write

def pretty (value : Value) : String := .ofList (value.writeIndented 0)

end Value

end StatsRelay.Json
