import StatsRelay.Failure
import StatsRelay.Sorted
import StatsRelay.Text.Segments
import StatsRelay.Text.Utf8

/-! Directories and files under paths. A path is a text with its steps divided by slashes. -/
namespace StatsRelay

open StatsRelay.Text.Utf8 (Bytes)

inductive FileSystem.Entry
  | directory
  | file (content : Bytes)
  /-- Cannot be opened. What forbids to read it also forbids the way to all below it. -/
  | barred (reading appending : SystemFault)
  /-- A file that cannot be read beyond its first octets. -/
  | damaged (first : Bytes) (fault : SystemFault)
deriving DecidableEq

/-- What exists, under the steps from the root. The root itself always exists. -/
structure FileSystem where
  entries : SortedMap (List String) FileSystem.Entry
  /-- The working directory, from which all paths lead that do not begin with a slash. -/
  cwd : List String
  /-- How many more octets files can hold, if that is limited. -/
  room : Option Nat
deriving DecidableEq

namespace FileSystem

def empty : FileSystem := ⟨.empty, [], none⟩

/-- Steps that change nothing are left out, but a slash at the end asks for a directory. -/
def steps (path : String) : List String :=
  let steps := (Text.segments '/' path.toList).map String.ofList
  let named := steps.filter fun step => step ≠ ""
  if steps.getLast? = some "" ∧ named ≠ [] then named ++ ["."] else named

def entry? (files : FileSystem) (place : List String) : Option Entry :=
  if place.isEmpty then some .directory else files.entries.get? place

/-- The place that a path leads to from a directory; only the last step may lead to what does not
exist. -/
def resolve (files : FileSystem) (place : List String) :
    List String → Except SystemFault (List String)
  | [] => .ok place
  | step :: rest =>
    match files.entry? place with
    | none => .error .missing
    | some (.file _) | some (.damaged _ _) => .error .notDirectory
    | some (.barred reading _) => .error reading
    | some .directory =>
      if step = "." then files.resolve place rest
      else if step = ".." then files.resolve place.dropLast rest
      else files.resolve (place ++ [step]) rest

def origin (files : FileSystem) (path : String) : List String :=
  if path.toList.head? = some '/' then [] else files.cwd

def locate (files : FileSystem) (path : String) : Except SystemFault (List String) :=
  if path.isEmpty then .error .missing else files.resolve (files.origin path) (steps path)

/-- Opens what exists for reading. A directory can be opened too, but not read. -/
def openInput (files : FileSystem) (path : String) : Except SystemFault Entry := do
  match files.entry? (← files.locate path) with
  | some (.barred reading _) => throw reading
  | some entry => return entry
  | none => throw .missing

def Entry.read : Entry → Except SystemFault Bytes
  | .directory => .error .isDirectory
  | .file content => .ok content
  | .barred reading _ => .error reading
  | .damaged _ fault => .error fault

def readBytes (files : FileSystem) (path : String) : Except SystemFault Bytes := do
  (← files.openInput path).read

def textOf (bytes : Bytes) : Except SystemFault String :=
  match Text.Utf8.decodeString? bytes with
  | some text => .ok text
  | none => .error .notText

def readText (files : FileSystem) (path : String) : Except SystemFault String := do
  textOf (← files.readBytes path)

def put (files : FileSystem) (place : List String) (entry : Entry) : FileSystem :=
  { files with entries := files.entries.insert place entry }

def unslashed (path : String) : String :=
  .ofList (path.toList.reverse.dropWhile (· = '/')).reverse

/-- The place of what is opened for appending. A slash at the end asks for a directory even where
there is none, and a directory is never opened so. -/
def locateAppended (files : FileSystem) (path : String) : Except SystemFault (List String) :=
  (files.locate path).mapError fun fault =>
    if (files.locate (unslashed path)).isOk then .isDirectory else fault

def openAppend (files : FileSystem) (path : String) :
    Except SystemFault (FileSystem × List String) := do
  let place ← files.locateAppended path
  match files.entry? place with
  | some .directory => throw .isDirectory
  | some (.barred _ appending) => throw appending
  | some (.file _) | some (.damaged _ _) => return (files, place)
  | none => return (files.put place (.file []), place)

def fitting (files : FileSystem) (bytes : Bytes) : Bytes := bytes.take (files.room.getD bytes.length)

/-- Appends what fits to a file, and reports the rest as lost. What is added to a damaged file stands
beyond what can be read of it. -/
def append (files : FileSystem) (place : List String) (bytes : Bytes) :
    FileSystem × Option SystemFault :=
  let added := files.fitting bytes
  let files := { files with room := files.room.map (· - added.length) }
  (match files.entry? place with
    | some (.file content) => files.put place (.file (content ++ added))
    | some (.damaged _ _) => files
    | _ => files.put place (.file added),
    if added.length < bytes.length then some .full else none)

/-- What follows the last dot of the last step's name, unless the name has no dot but at its start. -/
def extension? (path : String) : Option String :=
  match ((steps path).filter (· ≠ ".")).getLast? with
  | none => none
  | some name =>
    if name = ".." then none
    else match (Text.segments '.' name.toList).reverse with
      | last :: before =>
        if before.all (·.isEmpty) ∧ before.length ≤ 1 then none else some (.ofList last)
      | [] => none

end FileSystem

end StatsRelay
