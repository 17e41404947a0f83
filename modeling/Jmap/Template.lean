import Jmap.Text.Percent

/-! URL templates: names in braces stand for values, which are percent-encoded. A
name without a value, and a brace that is never closed, stay as they are written. -/
namespace Jmap.Template

/-- The first value under a name counts. -/
def fill (values : List (String × String)) (name braced : List Char) : List Char :=
  match values.lookup (String.ofList name) with
  | some value => Text.percentEncode value
  | none => braced

/-- `out` has been written, and `rest` is left to be searched for braces. -/
def expandRest (values : List (String × String)) (out rest : List Char) : List Char :=
  match _opens : rest.idxOf? '{' with
  | none => out ++ rest
  | some start =>
    let out := out ++ rest.extract 0 start
    match (rest.drop start).idxOf? '}' with
    | none => out ++ rest.drop start
    | some length =>
      let name := rest.extract (start + 1) (start + length)
      let braced := rest.extract start (start + length + 1)
      expandRest values (out ++ fill values name braced) (rest.drop (start + length + 1))
termination_by rest.length
decreasing_by
  obtain ⟨inside,_⟩ := List.idxOf?_eq_some_iff.mp _opens
  rw [List.length_drop]
  omega

def expand (values : List (String × String)) (template : String) : String :=
  String.ofList (expandRest values [] template.toList)

end Jmap.Template
