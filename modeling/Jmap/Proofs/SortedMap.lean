import Jmap.SortedMap
import Mathlib.Data.List.Forall2
import Mathlib.Data.List.Induction
import Mathlib.Data.List.Nodup
import Mathlib.Data.List.Sort
import Mathlib.Tactic.SplitIfs

/-! Maps built from lists of entries: a list that is sorted already is kept, and of a
list whose keys are distinct every entry is found. What is found in a map makes up the map. -/
namespace Jmap.SortedMap
variable {A : Type}

theorem insertEntry_last {key : String} {value : A} {entries : List (String × A)}
    (below : ∀ entry ∈ entries, entry.1 < key) :
    insertEntry key value entries = entries ++ [(key,value)] := by
  induction entries with
  | nil => rfl
  | cons first rest ih =>
    have smaller := below first (by simp)
    have notSmaller : ¬key < first.1 := fun larger => String.lt_irrefl key (String.lt_trans larger smaller)
    have different : key ≠ first.1 := fun same => String.lt_irrefl key (same ▸ smaller)
    rw [insertEntry,if_neg notSmaller,if_neg different,ih fun entry member => below entry (by simp [member])]
    rfl

theorem foldl_insert_entries (map : SortedMap A) (entries : List (String × A))
    (sorted : (map.entries ++ entries).Pairwise fun left right => left.1 < right.1) :
    (entries.foldl (fun map entry => map.insert entry.1 entry.2) map).entries = map.entries ++ entries := by
  induction entries generalizing map with
  | nil => simp
  | cons entry entries ih =>
    have below : ∀ earlier ∈ map.entries, earlier.1 < entry.1 := by
      intro earlier member
      exact (List.pairwise_append.mp sorted).2.2 earlier member entry (by simp)
    have inserted : (map.insert entry.1 entry.2).entries = map.entries ++ [entry] := insertEntry_last below
    have following := ih (map.insert entry.1 entry.2) (by simpa [inserted] using sorted)
    rw [List.foldl_cons,following,inserted]
    simp

theorem entries_ofList {entries : List (String × A)}
    (sorted : entries.Pairwise fun left right => left.1 < right.1) : (ofList entries).entries = entries :=
  foldl_insert_entries empty entries sorted

@[simp] theorem ofList_entries (map : SortedMap A) : ofList map.entries = map := ext (entries_ofList map.sorted)

theorem lookup_eq_none_of_fresh {key : String} {entries : List (String × A)}
    (fresh : key ∉ entries.map (·.1)) : entries.lookup key = none := by
  induction entries with
  | nil => rfl
  | cons first rest ih =>
    simp only [List.map_cons,List.mem_cons,not_or] at fresh
    rw [lookup_entry,if_neg fresh.1,ih fresh.2]

theorem find?_foldl_insert (map : SortedMap A) (entries : List (String × A)) (key : String) :
    (entries.foldl (fun map entry => map.insert entry.1 entry.2) map).find? key =
      (entries.reverse.lookup key).or (map.find? key) := by
  induction entries using List.reverseRecOn with
  | nil => rfl
  | append_singleton entries entry ih =>
    rw [List.foldl_append,List.foldl_cons,List.foldl_nil,find?_insert,ih,List.reverse_concat,lookup_entry]
    by_cases same : key = entry.1 <;> simp [same]

/-- The last entry of a key counts. -/
theorem find?_ofList_last (entries : List (String × A)) (key : String) :
    (ofList entries).find? key = entries.reverse.lookup key := by
  rw [ofList,find?_foldl_insert,find?_empty,Option.or_none]

theorem lookup_reverse {entries : List (String × A)} (distinct : (entries.map (·.1)).Nodup) (key : String) :
    entries.reverse.lookup key = entries.lookup key := by
  induction entries with
  | nil => rfl
  | cons first rest ih =>
    simp only [List.map_cons,List.nodup_cons] at distinct
    rw [List.reverse_cons,List.lookup_append,ih distinct.2,lookup_entry,lookup_entry]
    by_cases same : key = first.1
    · rw [lookup_eq_none_of_fresh (same ▸ distinct.1)]
      simp [same]
    · simp [same]

theorem find?_ofList (entries : List (String × A)) (key : String) (distinct : (entries.map (·.1)).Nodup) :
    (ofList entries).find? key = entries.lookup key := by
  rw [find?_ofList_last,lookup_reverse distinct]

theorem find?_merge (map other : SortedMap A) (key : String) :
    (map.merge other).find? key = (other.find? key).or (map.find? key) := by
  rw [merge,find?_foldl_insert,← find?_ofList_last,ofList_entries]

theorem sorted_of_keys {B : Type} {entries : List (String × A)} {others : List (String × B)}
    (same : List.Forall₂ (fun entry other => entry.1 = other.1) entries others)
    (sorted : entries.Pairwise fun left right => left.1 < right.1) :
    others.Pairwise fun left right => left.1 < right.1 := by
  have keys : entries.map (·.1) = others.map (·.1) := by
    rw [← List.forall₂_eq_eq_eq,List.forall₂_map_left_iff,List.forall₂_map_right_iff]
    exact same
  rw [← List.pairwise_map (f := Prod.fst)] at sorted ⊢
  exact keys ▸ sorted

theorem keys_nodup (map : SortedMap A) : map.keys.Nodup := by
  rw [List.Nodup,keys,List.pairwise_map]
  exact map.sorted.imp fun smaller => String.ne_of_lt smaller

theorem lookup_of_mem {entries : List (String × A)} (distinct : (entries.map (·.1)).Nodup) {entry : String × A}
    (member : entry ∈ entries) : entries.lookup entry.1 = some entry.2 := by
  obtain ⟨before,after,split⟩ := List.mem_iff_append.mp member
  rw [split,List.map_append,List.map_cons,List.nodup_append] at distinct
  have fresh : entry.1 ∉ before.map (·.1) := fun inside => distinct.2.2 _ inside _ (by simp) rfl
  rw [split,List.lookup_append,lookup_eq_none_of_fresh fresh,lookup_entry,if_pos rfl,Option.none_or]

theorem find?_of_mem {map : SortedMap A} {entry : String × A} (member : entry ∈ map.entries) :
    map.find? entry.1 = some entry.2 := lookup_of_mem (keys_nodup map) member

theorem mem_of_lookup {entries : List (String × A)} {key : String} {value : A} (found : entries.lookup key = some value) :
    (key,value) ∈ entries := by
  induction entries with
  | nil => contradiction
  | cons first rest ih =>
    rw [lookup_entry] at found
    split at found
    next same =>
      cases found
      simp [same]
    next => exact List.mem_cons_of_mem _ (ih found)

theorem mem_entries_iff {map : SortedMap A} {entry : String × A} :
    entry ∈ map.entries ↔ map.find? entry.1 = some entry.2 := ⟨find?_of_mem,mem_of_lookup⟩

theorem lookup_isSome {entries : List (String × A)} {key : String} :
    (entries.lookup key).isSome ↔ key ∈ entries.map (·.1) := by
  simp only [List.lookup_isSome_iff,List.mem_map,beq_iff_eq]
  exact exists_congr fun entry => and_congr_right fun _ => eq_comm

theorem mem_keys_ofList {entries : List (String × A)} {key : String} :
    key ∈ (ofList entries).keys ↔ key ∈ entries.map (·.1) := by
  rw [keys,← lookup_isSome,← find?,find?_ofList_last,lookup_isSome,List.map_reverse,List.mem_reverse]

/-- A map is what is found in it. -/
theorem ext_find? {left right : SortedMap A} (same : ∀ key, left.find? key = right.find? key) : left = right := by
  have irreflexive : Std.Irrefl fun left right : String × A => left.1 < right.1 := ⟨fun entry => String.lt_irrefl entry.1⟩
  have antisymmetric : Std.Antisymm fun left right : String × A => left.1 < right.1 :=
    ⟨fun _ _ less more => absurd (String.lt_trans less more) (String.lt_irrefl _)⟩
  refine ext (left.sorted.eq_of_mem_iff right.sorted fun entry => ?_)
  rw [mem_entries_iff,mem_entries_iff,same]

theorem mem_insertEntry (key : String) (value : A) (entries : List (String × A)) :
    (key,value) ∈ insertEntry key value entries := by
  induction entries with
  | nil => simp [insertEntry]
  | cons first rest ih =>
    unfold insertEntry
    split_ifs <;> simp [ih]

theorem eq_of_mem_insert {map : SortedMap A} {value : A} {entry : String × A}
    (member : entry ∈ (map.insert entry.1 value).entries) : entry = (entry.1,value) :=
  List.inj_on_of_nodup_map (keys_nodup (map.insert entry.1 value)) member
    (mem_insertEntry entry.1 value map.entries) rfl

theorem filter_insertEntry (keep : String → Bool) {key : String} (dropped : keep key = false) (value : A)
    (entries : List (String × A)) :
    (insertEntry key value entries).filter (keep ·.1) = entries.filter (keep ·.1) := by
  induction entries with
  | nil => simp [insertEntry,dropped]
  | cons first rest ih =>
    unfold insertEntry
    split_ifs with smaller same
    · simp [dropped]
    · simp [← same,dropped]
    · simp only [List.filter_cons,ih]

theorem erase_insert (map : SortedMap A) (key : String) (value : A) :
    (map.insert key value).erase key = map.erase key :=
  ext (filter_insertEntry (· ≠ key) (by simp) value map.entries)

theorem entries_foldl_erase (map : SortedMap A) (names : List String) :
    (names.foldl erase map).entries = map.entries.filter (!names.contains ·.1) := by
  induction names generalizing map with
  | nil => simp
  | cons name names ih =>
    rw [List.foldl_cons,ih,erase,List.filter_filter]
    congr 1
    funext entry
    simp [Bool.and_comm]

theorem foldl_erase_insert {names : List String} {key : String} (member : key ∈ names) (map : SortedMap A) (value : A) :
    names.foldl erase (map.insert key value) = names.foldl erase map := by
  apply ext
  rw [entries_foldl_erase,entries_foldl_erase]
  exact filter_insertEntry (!names.contains ·) (by simpa using member) value map.entries

theorem foldl_erase_idem (map : SortedMap A) (names : List String) :
    names.foldl erase (names.foldl erase map) = names.foldl erase map := by
  apply ext
  rw [entries_foldl_erase,entries_foldl_erase,List.filter_filter]
  simp

theorem lookup_filter (keep : String → Bool) (entries : List (String × A)) (key : String) :
    (entries.filter (keep ·.1)).lookup key = if keep key then entries.lookup key else none := by
  induction entries with
  | nil => simp
  | cons first rest ih =>
    rw [List.filter_cons,lookup_entry]
    by_cases same : key = first.1
    · subst same
      by_cases kept : keep first.1 <;> simp [kept,ih,lookup_entry]
    · by_cases kept : keep first.1 <;> simp [kept,ih,lookup_entry,same]

theorem find?_erase (map : SortedMap A) (key other : String) :
    (map.erase key).find? other = if other = key then none else map.find? other := by
  rw [find?,erase,lookup_filter (· ≠ key)]
  by_cases same : other = key <;> simp [same,find?]

theorem find?_foldl_erase (names : List String) (map : SortedMap A) (key : String) :
    (names.foldl erase map).find? key = if key ∈ names then none else map.find? key := by
  rw [find?,entries_foldl_erase,lookup_filter (!names.contains ·)]
  by_cases member : key ∈ names <;> simp [member,find?]

theorem insert_erase {map : SortedMap A} {key : String} {value : A} (held : map.find? key = some value) :
    (map.erase key).insert key value = map := by
  refine ext_find? fun other => ?_
  rw [find?_insert,find?_erase]
  by_cases same : other = key
  · rw [if_pos same,same,held]
  · rw [if_neg same,if_neg same]

theorem erase_of_find?_eq_none {map : SortedMap A} {key : String} (absent : map.find? key = none) :
    map.erase key = map := by
  apply ext
  simp only [erase,List.filter_eq_self,decide_eq_true_eq]
  intro entry member same
  have missing := List.lookup_eq_none_iff.mp absent entry member
  simp [same] at missing

section
variable (first second third : SortedMap A)

theorem merge_assoc : (first.merge second).merge third = first.merge (second.merge third) := by
  refine ext_find? fun key => ?_
  rw [find?_merge,find?_merge,find?_merge,find?_merge,Option.or_assoc]

theorem merge_self : first.merge first = first := by
  refine ext_find? fun key => ?_
  rw [find?_merge,Option.or_self]

theorem empty_merge : empty.merge first = first := by
  refine ext_find? fun key => ?_
  rw [find?_merge,find?_empty,Option.or_none]

theorem merge_empty : first.merge empty = first := rfl

theorem mem_keys_iff {key : String} : key ∈ first.keys ↔ (first.find? key).isSome := lookup_isSome.symm

theorem merge_comm {first second : SortedMap A} (disjoint : ∀ key ∈ first.keys, key ∉ second.keys) :
    first.merge second = second.merge first := by
  refine ext_find? fun key => ?_
  rw [find?_merge,find?_merge]
  cases found : first.find? key with
  | none => rw [Option.or_none,Option.none_or]
  | some value =>
    have absent := disjoint key ((mem_keys_iff first).mpr (by rw [found]; rfl))
    rw [mem_keys_iff,Option.not_isSome_iff_eq_none] at absent
    rw [absent,Option.none_or,Option.or_none]

end

end Jmap.SortedMap
