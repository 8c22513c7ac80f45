import StatsRelay.Text.Blank

/-! Cutting a text at each place where a character stands. -/
namespace StatsRelay.Text

/-- One segment more than there are separators. -/
def segments (separator : Char) : List Char → List (List Char)
  | [] => [[]]
  | c :: rest =>
    if c = separator then [] :: segments separator rest
    else match segments separator rest with
      | [] => [[c]]
      | first :: others => (c :: first) :: others

def filledSegments (separator : Char) (text : String) : List String :=
  ((segments separator text.toList).map fun segment => trim (.ofList segment)).filter (· ≠ "")

end StatsRelay.Text
