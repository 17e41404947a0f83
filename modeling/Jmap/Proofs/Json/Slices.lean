import Jmap.Json.Document
import Jmap.Proofs.Json.Reading

/-! Where the parts of a tree stand in the text that the tree prints: items one after the
other, and a member or an item of a record somewhere between the others. -/
namespace Jmap.Json

/-- The parts stand in the text in their order, and none overlaps the next. -/
inductive InOrder : List (List Char) → List Char → Prop where
  | nil (rest : List Char) : InOrder [] rest
  | cons {parts : List (List Char)} {rest : List Char} (before part : List Char) (later : InOrder parts rest) :
    InOrder (part :: parts) (before ++ part ++ rest)

namespace InOrder
variable {parts others : List (List Char)} {text rest : List Char}

theorem whole (part : List Char) : InOrder [part] part := by
  have alone := cons [] part (.nil [])
  rwa [List.nil_append,List.append_nil] at alone

theorem after (front : List Char) (inside : InOrder parts text) : InOrder parts (front ++ text) := by
  cases inside with
  | nil => exact .nil _
  | cons before part later =>
    have longer := cons (front ++ before) part later
    rwa [List.append_assoc front,List.append_assoc front] at longer

theorem append (left : InOrder parts text) (right : InOrder others rest) : InOrder (parts ++ others) (text ++ rest) := by
  induction left with
  | nil front => exact right.after front
  | cons before part _ ih =>
    have joined := cons before part ih
    rwa [← List.append_assoc] at joined

theorem before (inside : InOrder parts text) (back : List Char) : InOrder parts (text ++ back) := by
  have joined := inside.append (.nil back)
  rwa [List.append_nil] at joined

theorem tail {part : List Char} (inside : InOrder (part :: parts) text) : InOrder parts text := by
  cases inside with
  | cons before part later => exact later.after (before ++ part)

theorem sublist (inside : InOrder parts text) (fewer : others.Sublist parts) : InOrder others text := by
  induction fewer generalizing text with
  | slnil => exact inside
  | cons part _ ih => exact ih inside.tail
  | cons_cons part _ ih =>
    cases inside with
    | cons before _ later => exact .cons before part (ih later)

theorem of_mem {part : List Char} (inside : InOrder parts text) (member : part ∈ parts) : InOrder [part] text :=
  inside.sublist (List.singleton_sublist.mpr member)

/-- Each part may be replaced by parts that stand in it. -/
theorem refine {inner : List (List (List Char))} (inside : InOrder parts text)
    (each : List.Forall₂ InOrder inner parts) : InOrder inner.flatten text := by
  induction each generalizing text with
  | nil => exact .nil text
  | cons first _ ih =>
    cases inside with
    | cons before part later => exact (first.after before).append (ih later)

end InOrder

theorem Items.inOrder (items : Items) : InOrder (items.toList.map Node.print) items.print := by
  fun_induction Items.toList items with
  | case1 before item after =>
    have alone := ((InOrder.whole item.print).after before.print).before (after.print ++ [']'])
    rwa [← List.append_assoc] at alone
  | case2 before item after rest ih =>
    have first := ((InOrder.whole item.print).after before.print).before after.print
    exact first.append (ih.after [','])
  | case3 before item => exact (InOrder.whole item.print).after before.print

theorem Node.inOrder_items {node : Node} {nodes : List Node} (items : node.items? = some nodes) :
    InOrder (nodes.map print) node.print := by
  unfold items? at items
  split at items
  · cases items
    exact .nil _
  next items =>
    cases items
    exact items.inOrder.after ['[']
  · contradiction

theorem Members.inOrder_find? {name : String} {value : Node} :
    ∀ {members : Members}, members.find? name = some value → InOrder [value.print] members.print
  | .last label part after,found => by
    unfold find? at found
    split at found
    · cases found
      exact (((InOrder.whole value.print).after label.print).before after.print).before ['}']
    · contradiction
  | .more label part after rest,found => by
    unfold find? at found
    split at found
    · cases found
      exact (((InOrder.whole value.print).after label.print).before after.print).before (',' :: rest.print)
    · exact ((inOrder_find? found).after [',']).after (label.print ++ part.print ++ after.print)
  | .cut _ _,found => by contradiction
  | .stop,found => by contradiction

theorem Node.inOrder_field? {name : String} {place : Nat} {node value : Node} (found : node.field? name place = some value) :
    InOrder [value.print] node.print := by
  unfold field? at found
  split at found
  · exact (Members.inOrder_find? found).after ['{']
  next items =>
    have listed := items.inOrder.after ['[']
    have member : value ∈ items.toList := List.mem_of_getElem? found
    exact listed.of_mem (List.mem_map_of_mem member)
  · contradiction

theorem Document.inOrder_root {document : Document} {parts : List (List Char)} (inside : InOrder parts document.root.print) :
    InOrder parts document.print := by
  have placed := ((inside.after document.before.print).before document.after.print).before document.trailing
  exact placed

end Jmap.Json
