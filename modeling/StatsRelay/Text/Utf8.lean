/-! UTF-8 as a strict code: each character has one sequence of octets, so overlong forms, surrogates
and values above U+10FFFF are refused. -/
namespace StatsRelay.Text.Utf8

abbrev Bytes := List UInt8

def isContinuation (octet : UInt8) : Bool := 0x80 ≤ octet && octet < 0xC0

def payload (octet : UInt8) : Nat := octet.toNat % 64

def scalar? (least code : Nat) : Option Char :=
  if h : code.isValidChar then if least ≤ code then some (Char.ofNatAux code h) else none else none

def decode? : Bytes → Option (List Char)
  | [] => some []
  | a :: rest =>
    if a < 0x80 then do
      let c ← scalar? 0 a.toNat
      return c :: (← decode? rest)
    else match rest with
      | [] => none
      | b :: rest =>
        if !isContinuation b then none
        else if 0xC0 ≤ a && a < 0xE0 then do
          let c ← scalar? 0x80 (a.toNat % 32 * 64 + payload b)
          return c :: (← decode? rest)
        else match rest with
          | [] => none
          | c :: rest =>
            if !isContinuation c then none
            else if 0xE0 ≤ a && a < 0xF0 then do
              let s ← scalar? 0x800 (a.toNat % 16 * 4096 + payload b * 64 + payload c)
              return s :: (← decode? rest)
            else match rest with
              | [] => none
              | d :: rest =>
                if !isContinuation d then none
                else if 0xF0 ≤ a && a < 0xF8 then do
                  let s ← scalar? 0x10000
                    (a.toNat % 8 * 262144 + payload b * 4096 + payload c * 64 + payload d)
                  return s :: (← decode? rest)
                else none

/-- Why octets are no text: behind how many of them, and how many are in the way. If they end within a
character, none is. -/
structure Flaw where
  index : Nat
  length : Option Nat
deriving DecidableEq, Repr

namespace Flaw

def text (flaw : Flaw) : String :=
  match flaw.length with
  | some length => "invalid utf-8 sequence of " ++ toString length ++ " bytes from index " ++
      toString flaw.index
  | none => "incomplete utf-8 byte sequence from index " ++ toString flaw.index

end Flaw

/-- How many octets follow the first of a character, and between which two the next one is. -/
def following? (first : UInt8) : Option (Nat × UInt8 × UInt8) :=
  if 0xC2 ≤ first && first ≤ 0xDF then some (1, 0x80, 0xBF)
  else if first = 0xE0 then some (2, 0xA0, 0xBF)
  else if first = 0xED then some (2, 0x80, 0x9F)
  else if 0xE1 ≤ first && first ≤ 0xEF then some (2, 0x80, 0xBF)
  else if first = 0xF0 then some (3, 0x90, 0xBF)
  else if 0xF1 ≤ first && first ≤ 0xF3 then some (3, 0x80, 0xBF)
  else if first = 0xF4 then some (3, 0x80, 0x8F)
  else none

def flaw? (index : Nat) : Bytes → Option Flaw
  | [] => none
  | a :: rest =>
    if a < 0x80 then flaw? (index + 1) rest
    else match following? a with
      | none => some ⟨index, some 1⟩
      | some (more, low, high) => match rest with
        | [] => some ⟨index, none⟩
        | b :: rest =>
          if !(low ≤ b && b ≤ high) then some ⟨index, some 1⟩
          else if more = 1 then flaw? (index + 2) rest
          else match rest with
            | [] => some ⟨index, none⟩
            | c :: rest =>
              if !isContinuation c then some ⟨index, some 2⟩
              else if more = 2 then flaw? (index + 3) rest
              else match rest with
                | [] => some ⟨index, none⟩
                | d :: rest =>
                  if !isContinuation d then some ⟨index, some 3⟩ else flaw? (index + 4) rest

def encode (text : List Char) : Bytes := text.flatMap String.utf8EncodeChar

def decodeString? (bytes : Bytes) : Option String := (decode? bytes).map .ofList

def encodeString (text : String) : Bytes := encode text.toList

end StatsRelay.Text.Utf8
