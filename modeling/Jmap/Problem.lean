import Jmap.PropertyBag

/-! Problem details: the error object with which a whole request is rejected. -/
namespace Jmap
open Json

inductive ProblemType where
  | unknownCapability | notJson | notRequest | limit
  | other (uri : String)
  deriving DecidableEq

namespace ProblemType

def registered : String := "urn:ietf:params:jmap:error:"

def all : List ProblemType := [.unknownCapability,.notJson,.notRequest,.limit]

def uri : ProblemType → String
  | .unknownCapability => registered ++ "unknownCapability"
  | .notJson => registered ++ "notJSON"
  | .notRequest => registered ++ "notRequest"
  | .limit => registered ++ "limit"
  | .other uri => uri

def ofUri (uri : String) : ProblemType := (all.find? (·.uri == uri)).getD (.other uri)

end ProblemType

structure Problem where
  type : ProblemType
  title : Option String
  status : Option Nat
  detail : Option String
  /-- Identifies this occurrence of the problem. -/
  occurrence : Option String
  properties : PropertyBag

namespace Problem

def new (type : ProblemType) : Problem := ⟨type,none,none,none,none,.empty⟩

def limit (name : String) : Problem :=
  {new .limit with properties := SortedMap.empty.insert "limit" (.string name)}

def display (problem : Problem) : String :=
  match problem.detail,problem.title with
  | some detail,_ => detail
  | none,some title => title
  | none,none => problem.type.uri

/-- Named fields replace entries of the bag, unless they are absent, empty or zero. -/
def toBag (problem : Problem) : PropertyBag :=
  let bag := problem.properties.withText "type" problem.type.uri
  let bag := bag.withText "title" (problem.title.getD "")
  let bag := bag.withText "detail" (problem.detail.getD "")
  let bag := bag.withText "instance" (problem.occurrence.getD "")
  let status := problem.status.getD 0
  if status = 0 then bag else bag.insert "status" (.number (.integer status))

instance : Writable Problem := ⟨fun problem => .ok problem.toBag.toRaw⟩

/-- Null counts as absent. -/
def status? (bag : PropertyBag) : Except Defect (Option Nat) :=
  match bag.find? "status" with
  | none => .ok none
  | some .null => .ok none
  | some (.number (.integer n)) =>
    if 0 ≤ n ∧ n ≤ 65535 then .ok (some n.toNat) else .error (.invalidStatus (.number (.integer n)))
  | some value => .error (.invalidStatus value)

def ofBag (bag : PropertyBag) : Except Defect Problem := do
  let type ← bag.type.mapError FieldFault.toDefect
  let title ← (bag.text? "title").mapError FieldFault.toDefect
  let detail ← (bag.text? "detail").mapError FieldFault.toDefect
  let occurrence ← (bag.text? "instance").mapError FieldFault.toDefect
  let status ← status? bag
  let names := ["type","title","detail","instance","status"]
  return ⟨.ofUri type,title,status,detail,occurrence,names.foldl SortedMap.erase bag⟩

def reader : Reader Problem := PropertyBag.reader.andThen ofBag

end Problem
end Jmap
