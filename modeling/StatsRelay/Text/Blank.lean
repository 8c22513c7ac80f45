/-! Blank characters, and texts without the blanks at their ends. A character is blank when it has
the Unicode property White_Space, which is wider than the blanks of ASCII and than those of JSON. -/
namespace StatsRelay.Text

/-- The ranges of White_Space, first and last code point. -/
def blankRanges : List (Nat × Nat) :=
  [(0x09, 0x0D), (0x20, 0x20), (0x85, 0x85), (0xA0, 0xA0), (0x1680, 0x1680), (0x2000, 0x200A),
   (0x2028, 0x2029), (0x202F, 0x202F), (0x205F, 0x205F), (0x3000, 0x3000)]

def isBlank (c : Char) : Bool :=
  blankRanges.any fun range => range.1 ≤ c.toNat && c.toNat ≤ range.2

def trimStart (text : List Char) : List Char := text.dropWhile isBlank

def trimEnd (text : List Char) : List Char := (text.reverse.dropWhile isBlank).reverse

def trim (text : String) : String := .ofList (trimEnd (trimStart text.toList))

/-- Only the letters A to Z have a lower case here. -/
def lower (text : String) : String := .ofList (text.toList.map Char.toLower)

end StatsRelay.Text
