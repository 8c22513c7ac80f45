import StatsRelay.Json.Reader

/-! Strings of TOML in their four forms: basic strings with escapes and literal strings without, both
on one line or long. A long string ends at three quotes; one or two more right before them belong
to its text, and a line end right after its opening does not. -/
namespace StatsRelay.Toml

structure Form where
  literal : Bool
  long : Bool
deriving DecidableEq

namespace Form

def quote (form : Form) : Char := if form.literal then '\'' else '"'

def mark (form : Form) : List Char := List.replicate (if form.long then 3 else 1) form.quote

end Form

/-- Control characters other than the tab. -/
def isControl (c : Char) : Bool := (c.toNat < 0x20 && c ≠ '\t') || c = '\x7f'

def codePoint? (digits : List Char) : Option Char := do
  let code := (← digits.mapM Json.hexValue?).foldl (fun code digit => code * 16 + digit) 0
  if h : code.isValidChar then some (Char.ofNatAux code h) else none

def unescape? (c : Char) : Option Char :=
  if c = '"' ∨ c = '\\' then some c
  else if c = 'b' then some '\x08'
  else if c = 't' then some '\t'
  else if c = 'n' then some '\n'
  else if c = 'f' then some '\x0c'
  else if c = 'r' then some '\x0d'
  else if c = 'e' then some '\x1b'
  else none

/-- The end of a string, if it stands here: what still belongs to the text, and what follows. -/
def closing? (form : Form) (text : List Char) : Option (List Char × List Char) :=
  let run := (text.takeWhile (· = form.quote)).length
  if form.long then
    let run := min run 5
    if 3 ≤ run then some (List.replicate (run - 3) form.quote, text.drop run) else none
  else if 1 ≤ run then some ([], text.drop 1) else none

def startsLine : List Char → Bool
  | '\n' :: _ => true
  | '\x0d' :: '\n' :: _ => true
  | _ => false

/-- Whether a character may stand for itself; line ends may in long strings. -/
def isPlain (form : Form) (c : Char) (rest : List Char) : Bool :=
  !isControl c || (form.long && startsLine (c :: rest))

def isBlank (c : Char) : Bool := c = ' ' || c = '\t'

def skipBlanks (text : List Char) : List Char := text.dropWhile isBlank

def readLiteral (form : Form) : List Char → Option (List Char × List Char)
  | [] => none
  | c :: rest =>
    match closing? form (c :: rest) with
    | some found => some found
    | none => if isPlain form c rest then do
        let (text, rest) ← readLiteral form rest
        return (c :: text, rest)
      else none

/-- A backslash at the end of a line of a long string also skips the blanks and line ends after it. -/
def readBasic (form : Form) : (skipping : Bool) → List Char → Option (List Char × List Char)
  | _, [] => none
  | skipping, c :: rest =>
    if skipping && (isBlank c || startsLine (c :: rest)) then readBasic form true rest
    else match closing? form (c :: rest) with
      | some found => some found
      | none =>
        if c = '\\' then
          if form.long && startsLine (skipBlanks rest) then readBasic form true rest
          else match rest with
            | 'x' :: a :: b :: rest => do
              let c ← codePoint? [a, b]
              let (text, rest) ← readBasic form false rest
              return (c :: text, rest)
            | 'u' :: a :: b :: c :: d :: rest => do
              let c ← codePoint? [a, b, c, d]
              let (text, rest) ← readBasic form false rest
              return (c :: text, rest)
            | 'U' :: a :: b :: c :: d :: e :: f :: g :: h :: rest => do
              let c ← codePoint? [a, b, c, d, e, f, g, h]
              let (text, rest) ← readBasic form false rest
              return (c :: text, rest)
            | c :: rest => do
              let c ← unescape? c
              let (text, rest) ← readBasic form false rest
              return (c :: text, rest)
            | [] => none
        else if isPlain form c rest then do
          let (text, rest) ← readBasic form false rest
          return (c :: text, rest)
        else none

def readForm (form : Form) (text : List Char) : Option (List Char × List Char) :=
  let text := match form.long, text with
    | true, '\n' :: rest => rest
    | true, '\x0d' :: '\n' :: rest => rest
    | _, text => text
  if form.literal then readLiteral form text else readBasic form false text

def opening? : List Char → Option (Form × List Char)
  | '"' :: '"' :: '"' :: rest => some (⟨false, true⟩, rest)
  | '"' :: rest => some (⟨false, false⟩, rest)
  | '\'' :: '\'' :: '\'' :: rest => some (⟨true, true⟩, rest)
  | '\'' :: rest => some (⟨true, false⟩, rest)
  | _ => none

def readString (text : List Char) : Option (List Char × List Char) := do
  let (form, text) ← opening? text
  readForm form text

def longestRun (c : Char) (text : List Char) : Nat :=
  (text.foldl (fun (longest, run) d =>
    if d = c then (max longest (run + 1), run + 1) else (longest, 0)) (0, 0)).1

/-- The plainest form: without escapes if possible, and on one line if possible. -/
def chooseForm (text : List Char) : Form :=
  let lines := text.contains '\n'
  let codes := text.any fun c => isControl c && c ≠ '\n'
  let slashes := text.contains '\\'
  if !codes && !lines && !slashes && !text.contains '"' then ⟨false, false⟩
  else if !codes && !lines && !text.contains '\'' then ⟨true, false⟩
  else if !codes && !slashes && longestRun '"' text ≤ 2 then ⟨false, true⟩
  else if !codes && longestRun '\'' text ≤ 2 then ⟨true, true⟩
  else ⟨false, lines⟩

def upperHexDigit (value : Nat) : Char := (Nat.digitChar value).toUpper

def escape (c : Char) : List Char :=
  if c = '"' then ['\\', '"']
  else if c = '\\' then ['\\', '\\']
  else if c = '\x08' then ['\\', 'b']
  else if c = '\t' then ['\\', 't']
  else if c = '\n' then ['\\', 'n']
  else if c = '\x0c' then ['\\', 'f']
  else if c = '\x0d' then ['\\', 'r']
  else if isControl c then
    ['\\', 'u', '0', '0', upperHexDigit (c.toNat / 16), upperHexDigit (c.toNat % 16)]
  else [c]

/-- Of a run of quotes every third is escaped; a line end stands for itself. -/
def escapeLong : (run : Nat) → List Char → List Char
  | _, [] => []
  | run, c :: rest =>
    if c = '"' then
      if run = 2 then escape c ++ escapeLong 0 rest else c :: escapeLong (run + 1) rest
    else if c = '\n' then c :: escapeLong 0 rest
    else escape c ++ escapeLong 0 rest

def writeForm (form : Form) (text : List Char) : List Char :=
  let body :=
    if form.literal then text
    else if form.long then escapeLong 0 text
    else text.flatMap escape
  let first := if form.long && text.contains '\n' then ['\n'] else []
  form.mark ++ first ++ body ++ form.mark

def writeString (text : List Char) : List Char := writeForm (chooseForm text) text

end StatsRelay.Toml
