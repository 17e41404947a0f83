import Jmap.Json.Node

/-! The tree of a text, scanned from left to right. -/
namespace Jmap.Json

mutual
/-- A broken tree leaves no rest. -/
def scanNode : Nat → List Char → Node × List Char
  | 0,_ => (.broken,[])
  | fuel + 1,cs =>
    match cs with
    | 'n' :: 'u' :: 'l' :: 'l' :: rest => (.null,rest)
    | 't' :: 'r' :: 'u' :: 'e' :: rest => (.boolean true,rest)
    | 'f' :: 'a' :: 'l' :: 's' :: 'e' :: rest => (.boolean false,rest)
    | '"' :: rest =>
      match Literal.scan rest with
      | some (literal,rest) => (.string literal,rest)
      | none => (.broken,[])
    | '[' :: rest =>
      let (before,rest) := Gap.scan rest
      match rest with
      | ']' :: rest => (.emptyArray before,rest)
      | rest =>
        let (items,rest) := scanItems fuel before rest
        (.array items,rest)
    | '{' :: rest =>
      let (before,rest) := Gap.scan rest
      match rest with
      | '}' :: rest => (.emptyObject before,rest)
      | rest =>
        let (members,rest) := scanMembers fuel before rest
        (.object members,rest)
    | cs =>
      match NumberLiteral.scan cs with
      | some (literal,rest) => (.number literal,rest)
      | none => (.broken,[])
def scanItems : Nat → Gap → List Char → Items × List Char
  | 0,before,_ => (.cut before .broken,[])
  | fuel + 1,before,cs =>
    let (item,rest) := scanNode fuel cs
    let (after,rest) := Gap.scan rest
    match rest with
    | ',' :: rest =>
      let (next,rest) := Gap.scan rest
      let (items,rest) := scanItems fuel next rest
      (.more before item after items,rest)
    | ']' :: rest => (.last before item after,rest)
    | _ => (.cut before item,[])
def scanMembers : Nat → Gap → List Char → Members × List Char
  | 0,_,_ => (.stop,[])
  | fuel + 1,before,cs =>
    match cs with
    | '"' :: rest =>
      match Literal.scan rest with
      | none => (.stop,[])
      | some (key,rest) =>
        let (beforeColon,rest) := Gap.scan rest
        match rest with
        | ':' :: rest =>
          let (afterColon,rest) := Gap.scan rest
          let label : Label := ⟨before,key,beforeColon,afterColon⟩
          let (value,rest) := scanNode fuel rest
          let (after,rest) := Gap.scan rest
          match rest with
          | ',' :: rest =>
            let (next,rest) := Gap.scan rest
            let (members,rest) := scanMembers fuel next rest
            (.more label value after members,rest)
          | '}' :: rest => (.last label value after,rest)
          | _ => (.cut label value,[])
        | _ => (.cut ⟨before,key,beforeColon,[]⟩ .broken,[])
    | _ => (.stop,[])
end

/-- A value with the blanks around it and the characters left behind it. -/
structure Document where
  before : Gap
  root : Node
  after : Gap
  trailing : List Char
  deriving DecidableEq

namespace Document

/-- Each character accounts for at most two steps into the tree. -/
def ofChars (cs : List Char) : Document :=
  let (before,rest) := Gap.scan cs
  let (root,rest) := scanNode (2 * cs.length + 2) rest
  let (after,trailing) := Gap.scan rest
  ⟨before,root,after,trailing⟩

def ofText (text : String) : Document := ofChars text.toList

def isWhole (document : Document) : Bool := document.root.isClosed && document.trailing.isEmpty

def print (document : Document) : List Char :=
  document.before.print ++ document.root.print ++ document.after.print ++ document.trailing

end Document
end Jmap.Json
