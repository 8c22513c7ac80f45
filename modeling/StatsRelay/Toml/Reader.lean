import StatsRelay.Toml.Node
import StatsRelay.Toml.Scalar

/-! Reading TOML. A text is a list of statements, one a line: a key with its value, or the header of
the table to which the following keys belong. A text with any mistake has no document. -/
namespace StatsRelay.Toml

def skipVoid : (comment : Bool) → List Char → Option (List Char)
  | _, [] => some []
  | comment, c :: rest =>
    if startsLine (c :: rest) then skipVoid false rest
    else if comment then if isControl c then none else skipVoid true rest
    else if c = '#' then skipVoid true rest
    else if isBlank c then skipVoid false rest
    else some (c :: rest)

def isKeyChar (c : Char) : Bool := c.isAlphanum || c = '_' || c = '-'

def readName (text : List Char) : Option (String × List Char) :=
  match text with
  | '"' :: rest => (readForm ⟨false, false⟩ rest).map fun (name, rest) => (.ofList name, rest)
  | '\'' :: rest => (readForm ⟨true, false⟩ rest).map fun (name, rest) => (.ofList name, rest)
  | _ =>
    let (name, rest) := text.span isKeyChar
    if name.isEmpty then none else some (.ofList name, rest)

def readKey : Nat → List Char → Option ((List String × String) × List Char)
  | 0, _ => none
  | fuel + 1, text => do
    let (name, rest) ← readName text
    match skipBlanks rest with
    | '.' :: rest =>
      let ((path, last), rest) ← readKey fuel (skipBlanks rest)
      return ((name :: path, last), rest)
    | rest => return (([], name), rest)

abbrev Step := List Char → Option (Document × List Char)

def readPair (value : Step) (text : List Char) :
    Option ((List String × String) × Document × List Char) := do
  let (key, text) ← readKey (text.length + 1) text
  let (found, rest) ← value (skipBlanks (← takeChar '=' (skipBlanks text)))
  return (key, found, rest)

def readItems (value : Step) : Nat → List Char → Option (List Document × List Char)
  | 0, _ => none
  | fuel + 1, text => do
    match ← skipVoid false text with
    | ']' :: rest => return ([], rest)
    | text =>
      let (found, rest) ← value text
      match ← skipVoid false rest with
      | ',' :: rest =>
        let (items, rest) ← readItems value fuel rest
        return (found :: items, rest)
      | ']' :: rest => return ([found], rest)
      | _ => none

def readPairs (value : Step) : Nat → Entries → List Char → Option (Entries × List Char)
  | 0, _, _ => none
  | fuel + 1, entries, text => do
    match ← skipVoid false text with
    | '\x7d' :: rest => return (entries, rest)
    | text =>
      let ((path, name), found, rest) ← readPair value text
      let entries ← entries.define path name found
      match ← skipVoid false rest with
      | ',' :: rest => readPairs value fuel entries rest
      | '\x7d' :: rest => return (entries, rest)
      | _ => none

def readScalar : Step
  | '"' :: rest =>
    (readString ('"' :: rest)).map fun (text, rest) => (.string (some (.ofList text)), rest)
  | '\'' :: rest =>
    (readString ('\'' :: rest)).map fun (text, rest) => (.string (some (.ofList text)), rest)
  | text =>
    let (word, rest) := takeBare text
    (bareDocument? word).map (·, rest)

def readWith (value : Option Step) : Step
  | '[' :: rest => do
    let (items, rest) ← readItems (← value) (rest.length + 1) rest
    return (.array items, rest)
  | '\x7b' :: rest => do
    let (entries, rest) ← readPairs (← value) (rest.length + 1) [] rest
    return (entries.document, rest)
  | text => readScalar text

def readNested : Nat → Step
  | 0 => readWith none
  | room + 1 => readWith (some (readNested room))

def nestingLimit : Nat := 80

def readValue : Step := readNested nestingLimit

inductive Statement
  | pair (path : List String) (name : String) (value : Document)
  | table (path : List String) (name : String)
  | tables (path : List String) (name : String)

def readHeader (text : List Char) : Option ((List String × String) × List Char) := do
  let (key, rest) ← readKey (text.length + 1) (skipBlanks text)
  return (key, ← takeChar ']' (skipBlanks rest))

def readStatement (text : List Char) : Option (Statement × List Char) :=
  match text with
  | '[' :: '[' :: rest => do
    let ((path, name), rest) ← readHeader rest
    return (.tables path name, ← takeChar ']' rest)
  | '[' :: rest => do
    let ((path, name), rest) ← readHeader rest
    return (.table path name, rest)
  | _ => do
    let ((path, name), value, rest) ← readPair readValue text
    return (.pair path name value, rest)

/-- Nothing but a comment may follow a statement on its line. -/
def isLineEnd : List Char → Bool
  | [] => true
  | c :: rest => c = '#' || startsLine (c :: rest)

def readStatements : Nat → List Char → Option (List Statement)
  | 0, _ => none
  | fuel + 1, text => do
    match ← skipVoid false text with
    | [] => return []
    | text =>
      let (statement, rest) ← readStatement text
      let rest := skipBlanks rest
      if isLineEnd rest then return statement :: (← readStatements fuel rest) else none

/-- The tables so far, and the path of the table to which keys belong. -/
structure Progress where
  root : Entries
  current : List String

def Progress.add (progress : Progress) : Statement → Option Progress
  | .pair path name value => do
    let root ← progress.root.descend (·.define path name value) progress.current
    return { progress with root }
  | .table path name => do
    return ⟨← progress.root.descend (·.openTable name) path, path ++ [name]⟩
  | .tables path name => do
    return ⟨← progress.root.descend (·.openNext name) path, path ++ [name]⟩

/-- A mark of the byte order before the text is passed over. -/
def skipMark : List Char → List Char
  | c :: rest => if c = Char.ofNat 0xFEFF then rest else c :: rest
  | [] => []

def read? (text : String) : Option Document := do
  let text := skipMark text.toList
  let statements ← readStatements (text.length + 1) text
  let progress ← statements.foldlM Progress.add ⟨[], []⟩
  return progress.root.document

end StatsRelay.Toml
