import StatsRelay.Json.Reader
import StatsRelay.Json.Writer

/-! Strings of JSON. What is written for a text is read back as the text: a control character
without an escape of its own is read as a code unit, and all other characters as they are. -/
namespace StatsRelay.Json

def pieceOf (c : Char) : Piece :=
  if c.toNat < 0x20 ∧ c ∉ ['\x08', '\x0c', '\n', '\r', '\t'] then .unit c.toNat else .char c

private theorem hexValue?_hexDigit : ∀ value < 16, hexValue? (hexDigit value) = some value := by
  decide

theorem readPieces_escape (c : Char) {rest after : List Char} {pieces : List Piece}
    (read : readPieces rest = some (pieces, after)) :
    readPieces (escape c ++ rest) = some (pieceOf c :: pieces, after) := by
  unfold escape
  by_cases quote : c = '"'
  · subst quote
    simp [readPieces, unescape?, read, pieceOf]
  by_cases slash : c = '\\'
  · subst slash
    simp [readPieces, unescape?, read, pieceOf]
  by_cases short : c ∈ ['\x08', '\x0c', '\n', '\r', '\t']
  · simp only [List.mem_cons, List.not_mem_nil, or_false] at short
    rcases short with rfl | rfl | rfl | rfl | rfl <;>
      simp [readPieces, unescape?, read, pieceOf]
  have others := short
  simp only [List.mem_cons, List.not_mem_nil, or_false, not_or] at others
  by_cases control : c.toNat < 0x20
  · have first := hexValue?_hexDigit (c.toNat / 16) (by omega)
    have second := hexValue?_hexDigit (c.toNat % 16) (by omega)
    have zero : hexValue? '0' = some 0 := rfl
    have code : c.toNat / 16 * 16 + c.toNat % 16 = c.toNat := by omega
    simp [quote, slash, others, control, readPieces, first, second, zero, read, pieceOf, code]
  · simp [quote, slash, others, control, readPieces, read, pieceOf]

/-- Each character comes back as one part of the string. -/
theorem readPieces_flatMap (text rest : List Char) :
    readPieces (text.flatMap escape ++ '"' :: rest) = some (text.map pieceOf, rest) := by
  induction text with
  | nil => simp [readPieces]
  | cons c text ih =>
    rw [List.flatMap_cons, List.append_assoc]
    exact readPieces_escape c ih

private theorem join_unit {code : Nat} (small : code < 0x20) {rest : List Piece} {text : List Char}
    (joined : Piece.join rest = some text) :
    Piece.join (.unit code :: rest) = some (Char.ofNat code :: text) := by
  have high : Piece.isHigh code = false := by simp [Piece.isHigh]; omega
  have low : Piece.isLow code = false := by simp [Piece.isLow]; omega
  rcases rest with _ | ⟨_ | _, _⟩ <;> simp [Piece.join, high, low] <;> simp_all [Piece.join]

/-- No part of a written string is half of a pair. -/
theorem join_pieceOf (text : List Char) : Piece.join (text.map pieceOf) = some text := by
  induction text with
  | nil => rfl
  | cons c text ih =>
    rw [List.map_cons, pieceOf]
    split
    · rename_i control
      rw [join_unit control.1 ih, Char.ofNat_toNat]
    · simp [Piece.join, ih]

/-- Every text is read back from its escapes. -/
theorem readString_escape (text : String) (rest : List Char) :
    readString (text.toList.flatMap escape ++ '"' :: rest) = some (some text, rest) := by
  simp [readString, readPieces_flatMap, join_pieceOf]

private theorem hexDigit_printable : ∀ value < 16, 0x20 ≤ (hexDigit value).toNat := by decide

theorem escape_printable (c : Char) : ∀ written ∈ escape c, 0x20 ≤ written.toNat := by
  have control (small : c.toNat < 0x20) :
      ∀ written ∈ ['\\', 'u', '0', '0', hexDigit (c.toNat / 16), hexDigit (c.toNat % 16)],
        0x20 ≤ written.toNat := by
    have first := hexDigit_printable (c.toNat / 16) (by omega)
    have second := hexDigit_printable (c.toNat % 16) (by omega)
    simp [first, second]
  unfold escape
  iterate 7
    split
    · simp
  split
  · rename_i small
    exact control small
  · rename_i large
    simpa using large

/-- A written string has no control character in it. -/
theorem writeString_printable (text : String) : ∀ c ∈ writeString text, 0x20 ≤ c.toNat := by
  intro c c_mem
  rcases List.mem_append.mp c_mem with quoted | last
  · rcases List.mem_cons.mp quoted with rfl | escaped
    · decide
    · obtain ⟨given, _, written⟩ := List.mem_flatMap.mp escaped
      exact escape_printable given c written
  · rw [List.mem_singleton.mp last]
    decide

end StatsRelay.Json
