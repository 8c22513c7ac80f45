import StatsRelay.Document

/-! Tables of TOML while their entries are collected. A table that a header names is complete when
its entries are read; one that a path merely passes through can still be named by a header; one
that a dotted key makes can only be extended by dotted keys. -/
namespace StatsRelay.Toml

/-- How a table came to be. -/
inductive Origin
  | header
  | passed
  | dotted
deriving DecidableEq

inductive Node
  | leaf (document : Document)
  | table (origin : Origin) (entries : List (String × Node))
  /-- The tables that one header names again and again. -/
  | tables (items : List (List (String × Node)))
deriving Inhabited

abbrev Entries := List (String × Node)

namespace Entries

def set (name : String) (node : Node) : Entries → Entries
  | [] => [(name, node)]
  | entry :: rest => if entry.1 = name then (name, node) :: rest else entry :: set name node rest

def changeLast (f : Entries → Option Entries) : List Entries → Option (List Entries)
  | [] => none
  | [last] => (f last).map ([·])
  | first :: rest => (changeLast f rest).map (first :: ·)

def define : (path : List String) → (name : String) → Document → Entries → Option Entries
  | [], name, value, entries =>
    match entries.lookup name with
    | some _ => none
    | none => some (entries.set name (.leaf value))
  | step :: path, name, value, entries =>
    match entries.lookup step with
    | none => do return entries.set step (.table .dotted (← define path name value []))
    | some (.table .dotted inner) => do
      return entries.set step (.table .dotted (← define path name value inner))
    | some (.table .passed inner) =>
      if path.isEmpty then none
      else do return entries.set step (.table .passed (← define path name value inner))
    | some (.tables items) =>
      if path.isEmpty then none
      else do return entries.set step (.tables (← changeLast (define path name value) items))
    | some _ => none

def descend (f : Entries → Option Entries) : (path : List String) → Entries → Option Entries
  | [], entries => f entries
  | step :: path, entries =>
    match entries.lookup step with
    | none => do return entries.set step (.table .passed (← descend f path []))
    | some (.table origin inner) => do
      return entries.set step (.table origin (← descend f path inner))
    | some (.tables items) => do
      return entries.set step (.tables (← changeLast (descend f path) items))
    | some (.leaf _) => none

def openTable (name : String) (entries : Entries) : Option Entries :=
  match entries.lookup name with
  | none => some (entries.set name (.table .header []))
  | some (.table .passed inner) => some (entries.set name (.table .header inner))
  | some _ => none

def openNext (name : String) (entries : Entries) : Option Entries :=
  match entries.lookup name with
  | none => some (entries.set name (.tables [[]]))
  | some (.tables items) => some (entries.set name (.tables (items ++ [[]])))
  | some _ => none

end Entries

def sortNames (members : List (String × Document)) : List (Option String × Document) :=
  (Json.sortMembers members).map fun member => (some member.1, member.2)

mutual

def Node.document : Node → Document
  | .leaf document => document
  | .table _ entries => .object (sortNames (entryDocuments entries))
  | .tables items => .array (itemDocuments items)

def entryDocuments : List (String × Node) → List (String × Document)
  | [] => []
  | (name, node) :: rest => (name, node.document) :: entryDocuments rest

def itemDocuments : List (List (String × Node)) → List Document
  | [] => []
  | entries :: rest => .object (sortNames (entryDocuments entries)) :: itemDocuments rest

end

def Entries.document (entries : Entries) : Document := .object (sortNames (entryDocuments entries))

end StatsRelay.Toml
