import Jmap.Defect
import Jmap.Json.Raw

/-! Writing of values as compact JSON. The first part that may not be written, in
written order, is the one reported. -/
namespace Jmap.Json

class Writable (A : Type) where
  encode : A → Except Defect Raw

export Writable (encode)

instance : Writable Raw := ⟨.ok⟩
instance : Writable Value := ⟨fun value => .ok (.ofValue value)⟩
instance : Writable String := ⟨fun text => .ok (.ofString text)⟩
instance : Writable Bool := ⟨fun value => .ok (.ofBool value)⟩

instance {A : Type} [Writable A] : Writable (Option A) where
  encode
    | none => .ok .null
    | some value => encode value

instance {A : Type} [Writable A] : Writable (List A) where
  encode items := Raw.ofList <$> items.mapM encode

/-- The keys are texts that need no check. -/
instance {A : Type} [Writable A] : Writable (SortedMap A) where
  encode map := Raw.ofMembers <$> map.entries.mapM fun entry => (entry.1,·) <$> encode entry.2

/-- Named parts in the order in which they are written. -/
def encodeMembers (members : List (String × Except Defect Raw)) : Except Defect Raw :=
  Raw.ofMembers <$> members.mapM fun member => (member.1,·) <$> member.2

def encodeText {A : Type} [Writable A] (value : A) : Except Defect String := Raw.text <$> encode value

end Jmap.Json
