/-! Maps from texts, kept in the order of their keys. That order is the one in
which such a map is written, so equal maps have one written form. -/
namespace Jmap

structure SortedMap (A : Type) where
  entries : List (String × A)
  sorted : entries.Pairwise fun left right => left.1 < right.1

namespace SortedMap
variable {A : Type}

/-- The entry takes the place of one with the same key, or the first place
whose successor has a larger key. -/
def insertEntry (key : String) (value : A) : List (String × A) → List (String × A)
  | [] => [(key,value)]
  | entry :: rest =>
    if key < entry.1 then (key,value) :: entry :: rest
    else if key = entry.1 then (key,value) :: rest
    else entry :: insertEntry key value rest

theorem of_mem_insertEntry {key : String} {value : A} {entries : List (String × A)}
    {entry : String × A} (member : entry ∈ insertEntry key value entries) :
    entry = (key,value) ∨ entry ∈ entries := by
  induction entries with
  | nil => simpa [insertEntry] using member
  | cons first rest ih =>
    unfold insertEntry at member
    split at member
    · simpa using member
    · split at member
      · rcases List.mem_cons.mp member with same | inside
        · exact .inl same
        · exact .inr (List.mem_cons_of_mem _ inside)
      · rcases List.mem_cons.mp member with same | inside
        · exact .inr (by simp [same])
        · exact (ih inside).imp_right (List.mem_cons_of_mem _)

theorem insertEntry_sorted (key : String) (value : A) {entries : List (String × A)}
    (sorted : entries.Pairwise fun left right => left.1 < right.1) :
    (insertEntry key value entries).Pairwise fun left right => left.1 < right.1 := by
  induction entries with
  | nil => simp [insertEntry]
  | cons first rest ih =>
    have below := List.pairwise_cons.mp sorted
    unfold insertEntry
    split
    next smaller =>
      refine List.pairwise_cons.mpr ⟨?_,sorted⟩
      intro entry member
      rcases List.mem_cons.mp member with rfl | inside
      · exact smaller
      · exact String.lt_trans smaller (below.1 entry inside)
    next notSmaller =>
      split
      next same => exact List.pairwise_cons.mpr ⟨fun entry inside => same ▸ below.1 entry inside,below.2⟩
      next different =>
        refine List.pairwise_cons.mpr ⟨?_,ih below.2⟩
        intro entry member
        rcases of_mem_insertEntry member with rfl | inside
        · rcases Classical.em (first.1 < key) with less | notLess
          · exact less
          · exact absurd (String.le_antisymm (String.not_lt.mp notLess) (String.not_lt.mp notSmaller)) different
        · exact below.1 entry inside

def empty : SortedMap A := ⟨[],.nil⟩

instance : Inhabited (SortedMap A) := ⟨empty⟩
instance : EmptyCollection (SortedMap A) := ⟨empty⟩

instance [DecidableEq A] : DecidableEq (SortedMap A) := fun left right =>
  decidable_of_iff (left.entries = right.entries)
    ⟨fun same => by cases left; cases right; simpa using same,fun same => same ▸ rfl⟩

def find? (map : SortedMap A) (key : String) : Option A := map.entries.lookup key

def contains (map : SortedMap A) (key : String) : Bool := (map.find? key).isSome

def keys (map : SortedMap A) : List String := map.entries.map (·.1)

def size (map : SortedMap A) : Nat := map.entries.length

def isEmpty (map : SortedMap A) : Bool := map.entries.isEmpty

def insert (map : SortedMap A) (key : String) (value : A) : SortedMap A :=
  ⟨insertEntry key value map.entries,insertEntry_sorted key value map.sorted⟩

def erase (map : SortedMap A) (key : String) : SortedMap A :=
  ⟨map.entries.filter (·.1 ≠ key),map.sorted.filter _⟩

/-- The last entry of a key counts. -/
def ofList (entries : List (String × A)) : SortedMap A :=
  entries.foldl (fun map entry => map.insert entry.1 entry.2) empty

/-- Where both hold a key, the entry of `other` counts. -/
def merge (map other : SortedMap A) : SortedMap A :=
  other.entries.foldl (fun map entry => map.insert entry.1 entry.2) map

theorem ext {left right : SortedMap A} (same : left.entries = right.entries) : left = right := by
  cases left; cases right; simpa using same

theorem lookup_entry (key : String) (entry : String × A) (rest : List (String × A)) :
    (entry :: rest).lookup key = if key = entry.1 then some entry.2 else rest.lookup key := by
  obtain ⟨own,value⟩ := entry
  by_cases same : key = own
  · simp [same]
  · have different : (key == own) = false := by simpa using same
    simp [List.lookup_cons,same,different]

theorem lookup_insertEntry (key other : String) (value : A) (entries : List (String × A)) :
    (insertEntry key value entries).lookup other =
      if other = key then some value else entries.lookup other := by
  induction entries with
  | nil => simp only [insertEntry,lookup_entry]
  | cons first rest ih =>
    unfold insertEntry
    split
    next => simp only [lookup_entry]
    next =>
      split
      next equal =>
        subst equal
        by_cases same : other = first.1 <;> simp [lookup_entry,same]
      next different =>
        simp only [lookup_entry,ih]
        by_cases same : other = first.1
        · have fresh : first.1 ≠ key := fun equal => different equal.symm
          simp [same,fresh]
        · simp [same]

@[simp] theorem find?_empty (key : String) : (empty : SortedMap A).find? key = none := rfl

/-- Insertion changes what is found under its own key and nothing else. -/
theorem find?_insert (map : SortedMap A) (key other : String) (value : A) :
    (map.insert key value).find? other = if other = key then some value else map.find? other :=
  lookup_insertEntry key other value map.entries

end SortedMap
end Jmap
