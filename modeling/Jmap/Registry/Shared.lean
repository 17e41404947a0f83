import Jmap.Registry

/-! Registries by name that share their decoders until one of them changes: a clone points
at the same cell, and of several owners the first that writes takes a copy of its own. -/
namespace Jmap

structure Registries (A : Type) where
  cells : List (Registry A)
  /-- The cell of each registry. -/
  owned : SortedMap Nat

namespace Registries
variable {A : Type}

def empty : Registries A := ⟨[],.empty⟩

def named? (registries : Registries A) (name : String) : Option (Registry A) :=
  (registries.owned.find? name).bind (registries.cells[·]?)

def owners (registries : Registries A) (cell : Nat) : Nat := registries.owned.entries.countP (·.2 == cell)

/-- The registry that had the name before is dropped. -/
def create (registries : Registries A) (name : String) : Registries A :=
  ⟨registries.cells ++ [.empty],registries.owned.insert name registries.cells.length⟩

/-- As for a new registry, the one that had the name of the target is dropped. -/
def clone (registries : Registries A) (source target : String) : Registries A :=
  match registries.owned.find? source with
  | none => registries
  | some cell => {registries with owned := registries.owned.insert target cell}

/-- A cell with one owner is changed in its place. -/
def write (registries : Registries A) (name : String) (change : Registry A → Registry A) : Registries A :=
  match registries.owned.find? name with
  | none => registries
  | some cell =>
    if registries.owners cell = 1 then {registries with cells := registries.cells.modify cell change}
    else ⟨registries.cells ++ (registries.cells[cell]?.map change).toList,
      registries.owned.insert name registries.cells.length⟩

def register (registries : Registries A) (name method : String) (decoder : Decoder A) : Registries A :=
  registries.write name (·.insert method decoder)

/-- A source that is empty leaves everything as it is, the sharing too. -/
def merge (registries : Registries A) (name source : String) : Registries A :=
  match registries.named? source with
  | none => registries
  | some other => if other.isEmpty then registries else registries.write name (·.merge other)

end Registries
end Jmap
