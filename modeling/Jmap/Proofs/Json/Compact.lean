import Jmap.Json.Raw
import Jmap.Proofs.Json.Texts

/-! The texts of compact trees: items and members with a comma between them and no blanks,
and texts between quotes in which only what has to be escaped is escaped. -/
namespace Jmap.Json

namespace Compact

def shortEscapes : List (Char × Char) :=
  [('"','"'),('\\','\\'),('\x08','b'),('\t','t'),('\n','n'),('\x0c','f'),('\r','r')]

/-- The other controls are written as the number of their code point. -/
def character (c : Char) : List Char :=
  match shortEscapes.lookup c with
  | some letter => ['\\',letter]
  | none =>
    if c.toNat < 0x20 then ['\\','u','0','0',Nat.digitChar (c.toNat / 16),Nat.digitChar (c.toNat % 16)] else [c]

def quoted (text : String) : String := "\"" ++ String.ofList (text.toList.flatMap character) ++ "\""

def array (items : List String) : String := "[" ++ String.intercalate "," items ++ "]"

def object (members : List (String × String)) : String :=
  "\x7b" ++ String.intercalate "," (members.map fun member => quoted member.1 ++ ":" ++ member.2) ++ "\x7d"

end Compact

theorem Literal.print_spell (c : Char) : (spell c).print = Compact.character c := by
  unfold spell
  split_ifs with backspace formFeed lineFeed carriageReturn tab quote backslash allowed
  · subst backspace; rfl
  · subst formFeed; rfl
  · subst lineFeed; rfl
  · subst carriageReturn; rfl
  · subst tab; rfl
  · subst quote; rfl
  · subst backslash; rfl
  all_goals
    have long : Compact.shortEscapes.lookup c = none := by
      rw [List.lookup_eq_none_iff]
      simp [Compact.shortEscapes,backspace,formFeed,lineFeed,carriageReturn,tab,quote,backslash]
    rw [Compact.character,long]
    dsimp only
  · have printable : ¬c.toNat < 0x20 := by
      simp only [isPlain,Bool.and_eq_true,decide_eq_true_eq] at allowed
      omega
    rw [if_neg printable]
    rfl
  · have control := control_of_not_plain allowed quote backslash
    have high : c.toNat / 16 % 16 = c.toNat / 16 := by omega
    rw [if_pos control]
    simp only [Piece.print,HexDigit.ofFin,Fin.ofNat,high]
    rfl

theorem Compact.toList_quoted (text : String) : (quoted text).toList = (Literal.ofText text).print := by
  simp [quoted,Literal.print,Literal.ofText,List.flatMap_map,Literal.print_spell]

theorem Items.print_ofList (first : Node) (rest : List Node) :
    (Items.ofList first rest).print = [','].intercalate ((first :: rest).map Node.print) ++ [']'] := by
  induction rest generalizing first with
  | nil => simp [Items.ofList,Items.print,Gap.print]
  | cons second rest ih =>
    have printed := ih second
    rw [List.map_cons] at printed
    rw [Items.ofList,Items.print,printed,List.map_cons,List.map_cons,List.intercalate_cons_cons]
    simp [Gap.print]

/-- A key with its value. -/
def Node.printMember (member : String × Node) : List Char :=
  (Literal.ofText member.1).print ++ ':' :: member.2.print

theorem Members.print_ofList (key : String) (value : Node) (rest : List (String × Node)) :
    (Members.ofList key value rest).print =
      [','].intercalate (((key,value) :: rest).map Node.printMember) ++ ['}'] := by
  induction rest generalizing key value with
  | nil => simp [Members.ofList,Members.print,Label.print,Label.ofText,Gap.print,Node.printMember]
  | cons second rest ih =>
    have printed := ih second.1 second.2
    rw [List.map_cons] at printed
    rw [Members.ofList,Members.print,printed,List.map_cons,List.map_cons,List.intercalate_cons_cons]
    simp [Gap.print,Label.print,Label.ofText,Node.printMember]

namespace Raw

theorem text_ofString (text : String) : (ofString text).text = Compact.quoted text := by
  apply String.toList_injective
  rw [toList_text,Compact.toList_quoted]
  rfl

theorem text_ofList (items : List Raw) : (ofList items).text = Compact.array (items.map text) := by
  apply String.toList_injective
  rw [toList_text]
  change (Node.ofList (items.map node)).print = _
  cases items with
  | nil => rfl
  | cons first rest =>
    rw [List.map_cons,Node.ofList,Node.print,Items.print_ofList]
    simp [Compact.array,String.toList_intercalate,toList_text,Function.comp_def]

theorem toList_object (members : List (String × Raw)) :
    (Compact.object (members.map fun member => (member.1,member.2.text))).toList =
      '{' :: [','].intercalate (members.map fun member => Node.printMember (member.1,member.2.node)) ++ ['}'] := by
  simp [Compact.object,Compact.toList_quoted,String.toList_intercalate,Node.printMember,toList_text,Function.comp_def]

theorem text_ofMembers (members : List (String × Raw)) :
    (ofMembers members).text = Compact.object (members.map fun member => (member.1,member.2.text)) := by
  apply String.toList_injective
  rw [toList_text,toList_object]
  change (Node.ofMembers (members.map fun member => (member.1,member.2.node))).print = _
  cases members with
  | nil => rfl
  | cons first rest =>
    rw [List.map_cons,Node.ofMembers,Node.print,Members.print_ofList,List.map_cons,List.map_map]
    rfl

end Raw
end Jmap.Json
