/-! Replacement of a pattern wherever it occurs in a text. -/
namespace Jmap.Text

/-- The first characters, as many as are `replaced`, belong to an occurrence that was met before. -/
def replaceBehind (pattern replacement : List Char) : Nat → List Char → List Char
  | _,[] => []
  | replaced + 1,_ :: rest => replaceBehind pattern replacement replaced rest
  | 0,c :: rest =>
    if pattern.isPrefixOf (c :: rest) then
      replacement ++ replaceBehind pattern replacement (pattern.length - 1) rest
    else c :: replaceBehind pattern replacement 0 rest

/-- Occurrences of the pattern, of one character at least, are found from left to right. -/
def replace (pattern replacement text : List Char) : List Char := replaceBehind pattern replacement 0 text

end Jmap.Text
