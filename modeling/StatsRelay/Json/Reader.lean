import StatsRelay.Json.Literal
import StatsRelay.Document

/-! Reading JSON into a document. Blanks are the space, the tab and the two line ends. Every step
returns what it found and what follows, which is nothing once the text has broken off. -/
namespace StatsRelay.Json

def isBlank (c : Char) : Bool := c = ' ' || c = '\t' || c = '\n' || c = '\x0d'

def skipBlanks (text : List Char) : List Char := text.dropWhile isBlank

/-- A part of a string: a character as it stands, or a code unit that is escaped by its number. -/
inductive Piece
  | char (c : Char)
  | unit (code : Nat)
deriving DecidableEq

namespace Piece

def isHigh (code : Nat) : Bool := 0xD800 ≤ code && code < 0xDC00
def isLow (code : Nat) : Bool := 0xDC00 ≤ code && code < 0xE000

/-- Two code units in a row that form a pair are one character; alone neither is one. -/
def join : List Piece → Option (List Char)
  | [] => some []
  | char c :: rest => return c :: (← join rest)
  | unit high :: unit low :: rest =>
    if isHigh high && isLow low then
      return Char.ofNat (0x10000 + (high - 0xD800) * 1024 + (low - 0xDC00)) :: (← join rest)
    else if isHigh high || isLow high then none
    else return Char.ofNat high :: (← join (unit low :: rest))
  | unit code :: rest =>
    if isHigh code || isLow code then none else return Char.ofNat code :: (← join rest)

end Piece

def hexValue? (c : Char) : Option Nat :=
  if c.isDigit then some (c.toNat - '0'.toNat)
  else if 'a' ≤ c ∧ c ≤ 'f' then some (c.toNat - 'a'.toNat + 10)
  else if 'A' ≤ c ∧ c ≤ 'F' then some (c.toNat - 'A'.toNat + 10)
  else none

def unescape? (c : Char) : Option Char :=
  if c = '"' ∨ c = '\\' ∨ c = '/' then some c
  else if c = 'b' then some '\x08'
  else if c = 'f' then some '\x0c'
  else if c = 'n' then some '\n'
  else if c = 'r' then some '\x0d'
  else if c = 't' then some '\t'
  else none

def readPieces : List Char → Option (List Piece × List Char)
  | [] => none
  | '"' :: rest => some ([], rest)
  | '\\' :: 'u' :: a :: b :: c :: d :: rest => do
    let code := (((← hexValue? a) * 16 + (← hexValue? b)) * 16 + (← hexValue? c)) * 16
      + (← hexValue? d)
    let (pieces, rest) ← readPieces rest
    return (.unit code :: pieces, rest)
  | '\\' :: c :: rest => do
    let c ← unescape? c
    let (pieces, rest) ← readPieces rest
    return (.char c :: pieces, rest)
  | c :: rest =>
    if c = '\\' ∨ c.toNat < 0x20 then none
    else do
      let (pieces, rest) ← readPieces rest
      return (.char c :: pieces, rest)

/-- A string, without a text if it escapes half of a pair. -/
def readString (text : List Char) : Option (Option String × List Char) :=
  (readPieces text).map fun (pieces, rest) => ((Piece.join pieces).map .ofList, rest)

abbrev Step := List Char → Document × Option (List Char)

def broken : Document × Option (List Char) := (.fault, none)

def readWord (word : List Char) (found : Document) : Step := fun text =>
  if word.isPrefixOf text then (found, some (text.drop word.length)) else broken

def readScalar : Step
  | [] => broken
  | '"' :: rest => match readString rest with
    | some (text, rest) => (.string text, some rest)
    | none => broken
  | 'n' :: rest => readWord ['u', 'l', 'l'] .null rest
  | 't' :: rest => readWord ['r', 'u', 'e'] (.bool true) rest
  | 'f' :: rest => readWord ['a', 'l', 's', 'e'] (.bool false) rest
  | text => match Literal.take? text with
    | some (literal, rest) => (.number literal.number?, some rest)
    | none => broken

def readItems (item : Step) : Nat → List Char → List Document × Option (List Char)
  | 0, _ => ([.fault], none)
  | fuel + 1, text =>
    match item text with
    | (found, none) => ([found], none)
    | (found, some rest) => match skipBlanks rest with
      | ',' :: rest =>
        let (items, rest) := readItems item fuel rest
        (found :: items, rest)
      | ']' :: rest => ([found], some rest)
      | _ => ([found, .fault], none)

def readMembers (item : Step) :
    Nat → List Char → List (Option String × Document) × Option (List Char)
  | 0, _ => ([(none, .fault)], none)
  | fuel + 1, text =>
    match skipBlanks text with
    | '"' :: rest => match readString rest with
      | none => ([(none, .fault)], none)
      | some (name, rest) => match skipBlanks rest with
        | ':' :: rest => match item rest with
          | (found, none) => ([(name, found)], none)
          | (found, some rest) => match skipBlanks rest with
            | ',' :: rest =>
              let (members, rest) := readMembers item fuel rest
              ((name, found) :: members, rest)
            | '\x7d' :: rest => ([(name, found)], some rest)
            | _ => ([(name, found), (none, .fault)], none)
        | _ => ([(name, .fault)], none)
    | _ => ([(none, .fault)], none)

/-- A document whose parts the given step finds; without one, it may have none. -/
def readWith (item : Option Step) (text : List Char) : Document × Option (List Char) :=
  match skipBlanks text with
  | '[' :: rest => match item with
    | none => broken
    | some item => match skipBlanks rest with
      | ']' :: rest => (.array [], some rest)
      | rest =>
        let (items, rest) := readItems item (rest.length + 1) rest
        (.array items, rest)
  | '\x7b' :: rest => match item with
    | none => broken
    | some item => match skipBlanks rest with
      | '\x7d' :: rest => (.object [], some rest)
      | rest =>
        let (members, rest) := readMembers item (rest.length + 1) rest
        (.object members, rest)
  | text => readScalar text

def readNested : Nat → Step
  | 0 => readWith none
  | room + 1 => readWith (some (readNested room))

/-- The deepest nesting of what is not just passed over. -/
def nestingLimit : Nat := 127

/-- What a whole text holds, and whether nothing but blanks follows it. -/
structure Reading where
  document : Document
  complete : Bool

/-- No text is nested deeper than it is long, so all of it is read before the limit is applied. -/
def read (text : String) : Reading :=
  match readNested text.toList.length text.toList with
  | (document, none) => ⟨document.bounded nestingLimit, false⟩
  | (document, some rest) => ⟨document.bounded nestingLimit, (skipBlanks rest).isEmpty⟩

def Value.parse? (text : String) : Option Value :=
  let reading := read text
  if reading.complete then reading.document.value? else none

end StatsRelay.Json
