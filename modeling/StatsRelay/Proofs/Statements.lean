import Mathlib.Data.List.TakeDrop
import StatsRelay.Proofs.Quoted
import StatsRelay.Toml.Reader

/-! Texts of TOML with a statement a line and nothing between them but empty lines. -/
namespace StatsRelay.Toml

def Visible (c : Char) : Prop := c ∉ [' ', '\t', '\n', '\x0d', '#']

instance (c : Char) : Decidable (Visible c) := inferInstanceAs (Decidable (c ∉ _))

theorem Visible.skipBlanks {c : Char} (visible : Visible c) (rest : List Char) :
    skipBlanks (c :: rest) = c :: rest := by
  have other : isBlank c = false := by
    simp only [Visible, List.mem_cons, not_or] at visible
    simp [isBlank, visible]
  simp [Toml.skipBlanks, other]

theorem Visible.skipVoid {c : Char} (visible : Visible c) (rest : List Char) :
    skipVoid false (c :: rest) = some (c :: rest) := by
  simp only [Visible, List.mem_cons, List.not_mem_nil, or_false, not_or] at visible
  obtain ⟨space, tab, newline, return', hash⟩ := visible
  have line : startsLine (c :: rest) = false := startsLine_of_head newline return' rest
  simp [Toml.skipVoid, line, isBlank, space, tab, hash]

theorem skipVoid_newline (rest : List Char) : skipVoid false ('\n' :: rest) = skipVoid false rest := by
  simp [Toml.skipVoid, startsLine]

section Keys

def Bare (name : List Char) : Prop := name ≠ [] ∧ ∀ c ∈ name, isKeyChar c = true

variable {name rest : List Char}

theorem Bare.head (bare : Bare name) : ∃ c others, name = c :: others ∧ isKeyChar c = true := by
  obtain ⟨nonempty, each⟩ := bare
  obtain ⟨c, others, rfl⟩ := List.exists_cons_of_ne_nil nonempty
  exact ⟨c, others, rfl, each c List.mem_cons_self⟩

theorem ne_of_isKeyChar {c d : Char} (key : isKeyChar c = true) (other : isKeyChar d = false) :
    c ≠ d := by
  rintro rfl
  exact absurd key (by simp [other])

theorem visible_of_isKeyChar {c : Char} (key : isKeyChar c = true) : Visible c := by
  have others : [' ', '\t', '\n', '\x0d', '#'].all (!isKeyChar ·) = true := rfl
  intro c_mem
  have other := List.all_eq_true.mp others c c_mem
  simp [key] at other

theorem Bare.readName (bare : Bare name) (after : ∀ c ∈ rest.head?, isKeyChar c = false) :
    readName (name ++ rest) = some (.ofList name, rest) := by
  obtain ⟨c, others, rfl, key⟩ := bare.head
  have stop : rest.takeWhile isKeyChar = [] ∧ rest.dropWhile isKeyChar = rest := by
    cases rest with
    | nil => exact ⟨rfl, rfl⟩
    | cons d rest => simp [after d rfl]
  have cut : List.span isKeyChar (c :: others ++ rest) = (c :: others, rest) := by
    rw [List.span_eq_takeWhile_dropWhile, List.takeWhile_append_of_pos bare.2,
      List.dropWhile_append_of_pos bare.2, stop.1, stop.2, List.append_nil]
  unfold Toml.readName
  split
  · rename_i same
    exact absurd (List.cons.inj same).1 (ne_of_isKeyChar key (by decide))
  · rename_i same
    exact absurd (List.cons.inj same).1 (ne_of_isKeyChar key (by decide))
  · rw [cut]
    rfl

theorem Bare.readKey (bare : Bare name) (after : ∀ c ∈ rest.head?, isKeyChar c = false)
    (undotted : ∀ c ∈ (skipBlanks rest).head?, c ≠ '.') (fuel : Nat) :
    readKey (fuel + 1) (name ++ rest) = some (([], .ofList name), skipBlanks rest) := by
  rw [Toml.readKey, bare.readName after, Option.bind_eq_bind, Option.bind_some]
  dsimp only
  split
  · rename_i dot
    exact absurd rfl (undotted '.' (by rw [dot]; rfl))
  · rfl

/-- A name and its value are read back where the value does not start with a blank. -/
theorem Bare.readPair (bare : Bare name) {value : Step} {text : List Char} {found : Document}
    (shown : skipBlanks text = text) (read : value text = some (found, rest)) :
    readPair value (name ++ ' ' :: '=' :: ' ' :: text) = some (([], .ofList name), found, rest) := by
  have equals : skipBlanks (' ' :: '=' :: ' ' :: text) = '=' :: ' ' :: text := by
    simp [skipBlanks, isBlank]
  have undotted : ∀ c ∈ (skipBlanks (' ' :: '=' :: ' ' :: text)).head?, c ≠ '.' := by
    simp [equals]
  have key := bare.readKey (by simp; decide) undotted
    (name ++ ' ' :: '=' :: ' ' :: text).length
  have taken : takeChar '=' (skipBlanks ('=' :: ' ' :: text)) = some (' ' :: text) := by
    simp [skipBlanks, isBlank, takeChar]
  have gap : skipBlanks (' ' :: text) = text := by simpa [skipBlanks, isBlank] using shown
  rw [Toml.readPair, key, equals]
  simp only [Option.bind_eq_bind, Option.bind_some, taken, gap, read]
  rfl

theorem Bare.readStatement_pair (bare : Bare name) {text : List Char} {found : Document}
    (shown : skipBlanks text = text) (read : readValue text = some (found, rest)) :
    readStatement (name ++ ' ' :: '=' :: ' ' :: text) =
      some (.pair [] (.ofList name) found, rest) := by
  obtain ⟨c, others, rfl, key⟩ := bare.head
  have bracket : c ≠ '[' := ne_of_isKeyChar key (by decide)
  unfold readStatement
  split
  · rename_i same
    exact absurd (List.cons.inj same).1 bracket
  · rename_i same
    exact absurd (List.cons.inj same).1 bracket
  · rw [bare.readPair shown read]
    rfl

theorem Bare.readStatement_table (bare : Bare name) :
    readStatement ('[' :: name ++ ']' :: rest) = some (.table [] (.ofList name), rest) := by
  have closing : skipBlanks (']' :: rest) = ']' :: rest := by simp [skipBlanks, isBlank]
  have undotted : ∀ c ∈ (skipBlanks (']' :: rest)).head?, c ≠ '.' := by simp [closing]
  have key := bare.readKey (by simp; decide) undotted (name ++ ']' :: rest).length
  obtain ⟨c, others, rfl, first⟩ := bare.head
  have bracket : c ≠ '[' := ne_of_isKeyChar first (by decide)
  have header : readHeader (c :: others ++ ']' :: rest) =
      some (([], .ofList (c :: others)), rest) := by
    rw [readHeader, List.cons_append, (visible_of_isKeyChar first).skipBlanks, ← List.cons_append, key]
    simp [closing, takeChar]
  rw [List.cons_append, List.cons_append, readStatement.eq_2]
  · rw [← List.cons_append, header]
    rfl
  · intro more same
    exact bracket (List.cons.inj same).1

end Keys

def Shown (text : List Char) : Prop := ∃ c rest, text = c :: rest ∧ Visible c

theorem Shown.append {text : List Char} (shown : Shown text) (rest : List Char) :
    Shown (text ++ rest) := by
  obtain ⟨c, others, rfl, visible⟩ := shown
  exact ⟨c, others ++ rest, rfl, visible⟩

theorem Shown.skipBlanks {text : List Char} (shown : Shown text) : skipBlanks text = text := by
  obtain ⟨c, others, rfl, visible⟩ := shown
  exact visible.skipBlanks others

theorem Shown.skipVoid {text : List Char} (shown : Shown text) :
    skipVoid false text = some text := by
  obtain ⟨c, others, rfl, visible⟩ := shown
  exact visible.skipVoid others

theorem Bare.shown {name : List Char} (bare : Bare name) : Shown name := by
  obtain ⟨c, others, rfl, key⟩ := bare.head
  exact ⟨c, others, rfl, visible_of_isKeyChar key⟩

/-- A text in lines, each of them empty or a statement. -/
inductive Lines : List Char → List Statement → Prop
  | nil : Lines [] []
  | empty {text : List Char} {statements : List Statement} (later : Lines text statements) :
    Lines ('\n' :: text) statements
  | statement {line text : List Char} {statement : Statement} {statements : List Statement}
    (shown : Shown line)
    (read : readStatement (line ++ '\n' :: text) = some (statement, '\n' :: text))
    (later : Lines text statements) : Lines (line ++ '\n' :: text) (statement :: statements)

namespace Lines

variable {text : List Char} {statements : List Statement}

/-- Each statement takes a character at least, so the text is fuel enough. -/
theorem length_le (lines : Lines text statements) : statements.length ≤ text.length := by
  induction lines with
  | nil => exact Nat.le_refl 0
  | empty later ih => exact Nat.le_succ_of_le ih
  | statement shown read later ih =>
    rw [List.length_append, List.length_cons, List.length_cons]
    omega

theorem readStatements_newline (fuel : Nat) (text : List Char) :
    readStatements fuel ('\n' :: text) = readStatements fuel text := by
  cases fuel with
  | zero => rfl
  | succ fuel => rw [Toml.readStatements, Toml.readStatements, skipVoid_newline]

/-- What lines stand for is read from them. -/
theorem readStatements (lines : Lines text statements) {fuel : Nat}
    (enough : statements.length < fuel) : readStatements fuel text = some statements := by
  induction lines generalizing fuel with
  | nil =>
    obtain ⟨fuel, rfl⟩ := Nat.exists_eq_add_one_of_ne_zero (Nat.ne_of_gt enough)
    rfl
  | empty later ih =>
    rw [readStatements_newline]
    exact ih enough
  | @statement line text statement statements shown read later ih =>
    obtain ⟨fuel, rfl⟩ := Nat.exists_eq_add_one_of_ne_zero (Nat.ne_of_gt (Nat.zero_lt_of_lt enough))
    have others := ih (Nat.lt_of_succ_lt_succ enough)
    have ended : Toml.skipBlanks ('\n' :: text) = '\n' :: text := by simp [skipBlanks, isBlank]
    obtain ⟨c, more, rfl, visible⟩ := shown
    rw [List.cons_append] at read ⊢
    rw [Toml.readStatements, visible.skipVoid]
    simp only [Option.bind_eq_bind, Option.bind_some, read, ended]
    rw [readStatements_newline, others]
    rfl

theorem pair {name value : List Char} {found : Document} (bare : Bare name) (shown : Shown value)
    (read : readValue (value ++ '\n' :: text) = some (found, '\n' :: text))
    (later : Lines text statements) :
    Lines (name ++ ' ' :: '=' :: ' ' :: value ++ '\n' :: text)
      (.pair [] (.ofList name) found :: statements) := by
  have statement := bare.readStatement_pair (shown.append _).skipBlanks read
  exact .statement (bare.shown.append _) (by simpa using statement) later

theorem table {name : List Char} (bare : Bare name) (later : Lines text statements) :
    Lines ('[' :: name ++ [']'] ++ '\n' :: text) (.table [] (.ofList name) :: statements) := by
  have statement : readStatement ('[' :: name ++ ']' :: '\n' :: text) = _ :=
    bare.readStatement_table
  exact .statement ⟨'[', _, rfl, by decide⟩ (by simpa using statement) later

end Lines

section Values

theorem writeString_head (text : List Char) :
    ∃ c others, writeString text = c :: others ∧ (c = '"' ∨ c = '\'') := by
  rw [writeString, writeForm]
  obtain ⟨literal, long⟩ := chooseForm text
  cases long <;> cases literal <;>
    first
      | exact ⟨'"', _, rfl, .inl rfl⟩
      | exact ⟨'\'', _, rfl, .inr rfl⟩

theorem writeString_shown (text : List Char) : Shown (writeString text) := by
  obtain ⟨c, others, written, quote⟩ := writeString_head text
  refine ⟨c, others, written, ?_⟩
  rcases quote with rfl | rfl <;> decide

def stringOf (text : List Char) : Document := .string (some (.ofList text))

theorem readNested_writeString (room : Nat) (text : List Char) {rest : List Char}
    (after : Unquoted rest) :
    readNested room (writeString text ++ rest) = some (stringOf text, rest) := by
  have read := readString_writeString text after
  have scalar : readScalar (writeString text ++ rest) = some (stringOf text, rest) := by
    obtain ⟨c, others, written, quote⟩ := writeString_head text
    rw [written, List.cons_append] at read ⊢
    rcases quote with rfl | rfl
    · rw [readScalar, read]
      rfl
    · rw [readScalar, read]
      rfl
  have nested (value : Option Step) : readWith value (writeString text ++ rest) =
      readScalar (writeString text ++ rest) := by
    obtain ⟨c, others, written, quote⟩ := writeString_head text
    rw [written, List.cons_append]
    rcases quote with rfl | rfl <;> rfl
  cases room with
  | zero => exact (nested none).trans scalar
  | succ room => exact (nested _).trans scalar

section Items

variable {room : Nat} {text given rest : List Char}

theorem readItems_start (skipped : skipVoid false given = some (writeString text ++ rest))
    (fuel : Nat) :
    readItems (readNested room) (fuel + 1) given = (do
      let (found, rest) ← readNested room (writeString text ++ rest)
      match ← skipVoid false rest with
      | ',' :: rest =>
        let (items, rest) ← readItems (readNested room) fuel rest
        return (found :: items, rest)
      | ']' :: rest => return ([found], rest)
      | _ => none) := by
  obtain ⟨c, others, written, quote⟩ := writeString_head text
  rw [readItems, skipped, written]
  rcases quote with rfl | rfl <;> rfl

theorem readItems_next (skipped : skipVoid false given = some (writeString text ++ ',' :: rest))
    {fuel : Nat} {items : List Document} {after : List Char}
    (later : readItems (readNested room) fuel rest = some (items, after)) :
    readItems (readNested room) (fuel + 1) given = some (stringOf text :: items, after) := by
  have ended : Unquoted (',' :: rest) := by simp [Unquoted]
  have comma := (show Visible ',' by decide).skipVoid rest
  rw [readItems_start skipped, readNested_writeString room text ended]
  simp only [Option.bind_eq_bind, Option.bind_some, comma, later]
  rfl

theorem readItems_last (skipped : skipVoid false given = some (writeString text ++ ']' :: rest))
    (fuel : Nat) :
    readItems (readNested room) (fuel + 1) given = some ([stringOf text], rest) := by
  have ended : Unquoted (']' :: rest) := by simp [Unquoted]
  have bracket := (show Visible ']' by decide).skipVoid rest
  rw [readItems_start skipped, readNested_writeString room text ended]
  simp only [Option.bind_eq_bind, Option.bind_some, bracket]
  rfl

def itemLine (text : List Char) : List Char :=
  [' ', ' ', ' ', ' '] ++ writeString text ++ [',', '\n']

/-- Items on lines of their own, each with a comma behind it. -/
theorem readItems_lines (texts : List (List Char)) {fuel : Nat} (enough : texts.length < fuel) :
    readItems (readNested room) fuel ('\n' :: (texts.flatMap itemLine ++ ']' :: rest)) =
      some (texts.map stringOf, rest) := by
  induction texts generalizing fuel with
  | nil =>
    obtain ⟨fuel, rfl⟩ := Nat.exists_eq_add_one_of_ne_zero (Nat.ne_of_gt enough)
    rfl
  | cons text texts ih =>
    obtain ⟨fuel, rfl⟩ := Nat.exists_eq_add_one_of_ne_zero (Nat.ne_of_gt (Nat.zero_lt_of_lt enough))
    have others := ih (Nat.lt_of_succ_lt_succ enough)
    have line : '\n' :: ((text :: texts).flatMap itemLine ++ ']' :: rest) =
        ['\n', ' ', ' ', ' ', ' '] ++ (writeString text ++
          ',' :: '\n' :: (texts.flatMap itemLine ++ ']' :: rest)) := by
      simp [itemLine]
    -- The line end after the comma is the one before the next item.
    rw [line]
    exact readItems_next ((writeString_shown text).append _).skipVoid others

theorem length_le_itemLines (texts : List (List Char)) :
    texts.length ≤ (texts.flatMap itemLine).length := by
  induction texts with
  | nil => exact Nat.le_refl 0
  | cons text texts ih =>
    rw [List.flatMap_cons, List.length_append, List.length_cons, itemLine, List.length_append]
    simp only [List.length_append, List.length_cons]
    omega

end Items

def writeList : List (List Char) → List Char
  | [] => ['[', ']']
  | [text] => '[' :: writeString text ++ [']']
  | texts => '[' :: '\n' :: texts.flatMap itemLine ++ [']']

/-- A list is read back in both forms in which it is written. -/
theorem readValue_writeList (texts : List (List Char)) (rest : List Char) :
    readValue (writeList texts ++ rest) = some (.array (texts.map stringOf), rest) := by
  have brackets (inner : List Char) {items : List Document} (read : readItems (readNested 79)
      ((inner ++ ']' :: rest).length + 1) (inner ++ ']' :: rest) = some (items, rest)) :
      readValue ('[' :: inner ++ [']'] ++ rest) = some (.array items, rest) := by
    have text : '[' :: inner ++ [']'] ++ rest = '[' :: (inner ++ ']' :: rest) := by simp
    rw [text, readValue, nestingLimit, readNested, readWith]
    simp only [Option.bind_eq_bind, Option.bind_some, read]
    rfl
  obtain _ | ⟨text, _ | ⟨second, texts⟩⟩ := texts
  · exact brackets [] rfl
  · have shown := (writeString_shown text).append (']' :: rest)
    exact brackets _ (readItems_last shown.skipVoid _)
  · have few := length_le_itemLines (text :: second :: texts)
    apply brackets ('\n' :: (text :: second :: texts).flatMap itemLine)
    apply readItems_lines
    simp only [List.cons_append, List.length_cons, List.length_append] at few ⊢
    omega

end Values

end StatsRelay.Toml
