import StatsRelay.Schema.Label
import StatsRelay.Schema.Table

/-! What every failure looks like to the outside: where it comes from, whether trying again can help,
a stable code, a message for people and details under names. -/
namespace StatsRelay

namespace Failure

inductive Origin
  /-- Input, settings or a call that cannot be accepted. -/
  | expected
  /-- A state that should not arise. -/
  | invariant
  /-- The system or the storage. -/
  | unexpected
deriving DecidableEq, Repr

instance : Labelled Origin where
  all := [.expected, .invariant, .unexpected]
  label
    | .expected => "Expected"
    | .invariant => "Invariant"
    | .unexpected => "Unexpected"

def Origin.word : Origin → String
  | expected => "expected"
  | invariant => "invariant"
  | unexpected => "unexpected"

inductive Retry
  | retriable
  | nonRetriable
deriving DecidableEq, Repr

instance : Labelled Retry where
  all := [.retriable, .nonRetriable]
  label
    | .retriable => "Retriable"
    | .nonRetriable => "NonRetriable"

def Retry.word : Retry → String
  | retriable => "retriable"
  | nonRetriable => "non-retriable"

structure Code where
  area : String
  name : String
deriving DecidableEq, Repr

namespace Code

def invalidInput : Code := ⟨"core", "invalid_input"⟩
def notFound : Code := ⟨"core", "not_found"⟩
def permissionDenied : Code := ⟨"core", "permission_denied"⟩
def system : Code := ⟨"core", "io"⟩
def internal : Code := ⟨"core", "internal"⟩

def text (code : Code) : String := code.area ++ ":" ++ code.name

def table : Table Code where
  columns := [.required "namespace" .text, .required "code" .text]
  strict := false
  ofRow | (area, name, ()) => ⟨area, name⟩
  toRow code := (code.area, code.name, ())

end Code

abbrev Details := SortedMap String String

end Failure

open Failure in
structure Failure where
  origin : Origin
  retry : Retry
  code : Code
  message : String
  details : Details
deriving DecidableEq

namespace Failure

def expected (code : Code) (message : String) : Failure :=
  ⟨.expected, .nonRetriable, code, message, .empty⟩

def invariant (code : Code) (message : String) : Failure :=
  ⟨.invariant, .nonRetriable, code, message, .empty⟩

def unexpected (code : Code) (message : String) (retry : Retry) : Failure :=
  ⟨.unexpected, retry, code, message, .empty⟩

def withDetail (failure : Failure) (name value : String) : Failure :=
  { failure with details := failure.details.insert name value }

def text (failure : Failure) : String :=
  failure.origin.word ++ " " ++ failure.retry.word ++ " " ++ failure.code.text ++ ": " ++
    failure.message

def table : Table Failure where
  columns := [.required "kind" (Labelled.codec : Codec Origin),
    .required "class" (Labelled.codec : Codec Retry), .required "code" Code.table.codec,
    .required "message" .text,
    { Column.withDefault "metadata" (.map .text) .empty with
      shown := fun details => !details.isEmpty }]
  strict := false
  ofRow | (origin, retry, code, message, details, ()) => ⟨origin, retry, code, message, details⟩
  toRow failure :=
    (failure.origin, failure.retry, failure.code, failure.message, failure.details, ())

def codec : Codec Failure := table.codec

end Failure

/-- The kinds of faults of the system that are told apart. -/
inductive SystemFault.Kind
  | notFound
  | permissionDenied
  | invalidData
  | invalidInput
  | wouldBlock
  | timedOut
  | interrupted
  | brokenPipe
  | other
deriving DecidableEq, Repr

/-- What the system reports when it cannot do what it is asked to. -/
structure SystemFault where
  kind : SystemFault.Kind
  text : String
deriving DecidableEq, Repr

namespace SystemFault

open Failure

def Kind.retry : Kind → Retry
  | wouldBlock | timedOut | interrupted | brokenPipe => .retriable
  | _ => .nonRetriable

def Kind.code : Kind → Code
  | notFound => .notFound
  | permissionDenied => .permissionDenied
  | invalidData | invalidInput => .invalidInput
  | _ => .system

def failure (fault : SystemFault) : Failure :=
  .unexpected fault.kind.code fault.text fault.kind.retry

def missing : SystemFault := ⟨.notFound, "No such file or directory (os error 2)"⟩
def isDirectory : SystemFault := ⟨.other, "Is a directory (os error 21)"⟩
def notDirectory : SystemFault := ⟨.other, "Not a directory (os error 20)"⟩
def full : SystemFault := ⟨.other, "No space left on device (os error 28)"⟩
def notText : SystemFault := ⟨.invalidData, "stream did not contain valid UTF-8"⟩

end SystemFault

end StatsRelay
