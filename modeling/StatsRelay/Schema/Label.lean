import StatsRelay.Schema.Codec

/-! Types with a fixed list of values, each with a label of its own. -/
namespace StatsRelay

class Labelled (α : Type) where
  all : List α
  label : α → String

export Labelled (label)

namespace Labelled

variable {α : Type} [Labelled α]

def ofLabel? (text : String) : Option α := all.find? (label · == text)

def read (text : String) : Except Fault α :=
  match ofLabel? text with
  | some value => .ok value
  | none => .error (.unknownVariant text)

/-- Written as a label, or as an object whose one member has the label as its name and holds null. -/
def codec : Codec α where
  read
    | .string (some text) => read text
    | .object ((some name, document) :: rest) => do
      let value ← read name
      match document, rest with
      | .null, [] => return value
      | _, _ => throw .malformed
    | _ => .error .malformed
  write value := .string (label value)

/-- As `codec`, where documents are known to their ends before they are decoded: what is wrong with
the object counts before the name in it, and an empty object does for null. -/
def wholeCodec : Codec α where
  read
    | .string (some text) => read text
    | .object [(some name, document)] => do
      let value ← read name
      match document with
      | .null | .object [] => return value
      | _ => throw .malformed
    | _ => .error .malformed
  write value := .string (label value)

end Labelled

end StatsRelay
