import Jmap.Observability.ValuePattern

/-! Which log filters can be understood: directives between commas, each a level, or
a target, a span in brackets or both, with an equals sign and a level behind them.
A span can name a field in braces, and a pattern for its value. -/
namespace Jmap.LogFilter

def levels : List String := ["off","error","warn","info","debug","trace"]

/-- A name in any case, or a digit up to five. -/
def isLevel (text : List Char) : Bool :=
  levels.contains (String.ofList (text.map Char.toLower)) ||
    match text with
    | [digit] => '0' ≤ digit && digit ≤ '5'
    | _ => false

/-- Nothing, or an equals sign and possibly a level. -/
def isLevelPart : List Char → Bool
  | [] => true
  | '=' :: level => level.isEmpty || isLevel level
  | _ => false

def isWordChar (c : Char) : Bool := c.isAlphanum || c == '_'

/-- What follows a second equals sign does not count. -/
def isField (text : List Char) : Bool :=
  text.head?.any isWordChar &&
    match text.dropWhile (fun c => isWordChar c || c == '.') with
    | [] => true
    | '=' :: value => ValuePattern.isValid (value.takeWhile (· != '='))
    | _ => false

/-- Behind the opening bracket: a name, a field in braces or both. -/
def isSpanPart (text : List Char) : Bool :=
  match text.dropWhile (fun c => c != ']' && c != '{') with
  | ']' :: rest => isLevelPart rest
  | '{' :: rest =>
    isField (rest.takeWhile (fun c => c != ']' && c != '}')) &&
      match rest.dropWhile (fun c => c != ']' && c != '}') with
      | '}' :: ']' :: rest => isLevelPart rest
      | _ => false
  | _ => false

def isTargetChar (c : Char) : Bool := isWordChar c || c == ':' || c == '-'

/-- Blanks are part of no name. -/
def isDirective : List Char → Bool
  | [] => false
  | '[' :: rest => isSpanPart rest
  | c :: rest =>
    isTargetChar c &&
      match rest.dropWhile isTargetChar with
      | '[' :: rest => isSpanPart rest
      | rest => isLevelPart rest

/-- Empty pieces are skipped. -/
def isValid (filter : String) : Bool :=
  ((filter.toList.splitOnP (· == ',')).filter fun piece => !piece.isEmpty).all isDirective

end Jmap.LogFilter
