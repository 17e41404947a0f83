/-! Patterns for the values of logged fields: characters, a point for any of them,
groups in parentheses, alternatives between bars, and operators that repeat what
stands before them. A backslash takes the meaning from a character that has one. -/
namespace Jmap.ValuePattern

/-- How deep groups may be nested. -/
def maxNesting : Nat := 60

def hasMeaning (c : Char) : Bool := "\\.+*?()|[]\x7b\x7d^$".toList.contains c

/-- Behind an operator a question mark makes it stop as early as it can. -/
def isOperator (c : Char) : Bool := c == '*' || c == '+' || c == '?'

/-- What can follow inside `depth` open groups; an operator only where `repeatable`. -/
def isRest (depth : Nat) (repeatable : Bool) : List Char → Bool
  | [] => depth == 0
  | '\\' :: c :: rest => hasMeaning c && isRest depth true rest
  | '(' :: '?' :: ':' :: rest => depth < maxNesting && isRest (depth + 1) false rest
  | '(' :: rest => depth < maxNesting && isRest (depth + 1) false rest
  | ')' :: rest => 0 < depth && isRest (depth - 1) true rest
  | '|' :: rest => isRest depth false rest
  | '.' :: rest => isRest depth true rest
  | '*' :: '?' :: rest => repeatable && isRest depth false rest
  | '+' :: '?' :: rest => repeatable && isRest depth false rest
  | '?' :: '?' :: rest => repeatable && isRest depth false rest
  | c :: rest =>
    if isOperator c then repeatable && isRest depth false rest
    else !hasMeaning c && isRest depth true rest

def isPattern (text : List Char) : Bool := isRest 0 false text

/-- A pattern, or a number with a plus sign. -/
def isValid : List Char → Bool
  | '+' :: digits => !digits.isEmpty && digits.all Char.isDigit
  | text => isPattern text

end Jmap.ValuePattern
