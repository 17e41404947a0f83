import Jmap.Id.Random
import Jmap.Proofs.Id
import Mathlib.Data.Stream.Init

/-! The search for a random identifier. The digits of a block are always valid, and they are
safe unless the first of them is a decimal digit, so that the first byte alone decides whether
the search goes on. -/
namespace Jmap.Id

namespace Draw

/-- The digits of such a block start with a decimal one, so the search goes on behind it. -/
def IsPassed : Draw → Prop
  | .ok bytes => bytes[0] < 0xa0
  | .error _ => False

instance : DecidablePred IsPassed
  | .ok bytes => inferInstanceAs (Decidable (bytes[0] < 0xa0))
  | .error _ => .isFalse id

inductive Ends : Draw → Except Error Id → Prop where
  | block {bytes : Vector UInt8 32} {id : Id} (high : (0xa0 : UInt8) ≤ bytes[0])
    (spelled : HexText bytes.toList id.text.toList) : Ends (.ok bytes) (.ok id)
  | failure (reason : String) : Ends (.error reason) (.error (.entropy reason))

end Draw

theorem digitChar_eq : ∀ value : Fin 16, Nat.digitChar value.val = hexDigit value := by decide

theorem hexText_iff {bytes : List UInt8} {cs : List Char} : HexText bytes cs ↔
    cs = bytes.flatMap fun byte => [Nat.digitChar (byte.toNat / 16),Nat.digitChar (byte.toNat % 16)] := by
  constructor
  · intro spelled
    induction spelled with
    | nil => rfl
    | @cons byte bytes cs high low value _ ih =>
      have first : byte.toNat / 16 = high.val := by omega
      have second : byte.toNat % 16 = low.val := by omega
      rw [List.flatMap_cons,first,second,digitChar_eq,digitChar_eq,← ih]
      rfl
  · rintro rfl
    induction bytes with
    | nil => exact .nil
    | cons byte bytes ih =>
      have bound := byte.toNat_lt
      have spelled := HexText.cons ⟨byte.toNat / 16,by omega⟩ ⟨byte.toNat % 16,by omega⟩
        (Nat.div_add_mod byte.toNat 16).symm ih
      rw [← digitChar_eq,← digitChar_eq] at spelled
      exact spelled

section
variable {bytes : Vector UInt8 32} {id : Id}

theorem hexText_ofBytes_iff : HexText bytes.toList id.text.toList ↔ id = ofBytes bytes := by
  rw [hexText_iff]
  constructor
  · intro same
    obtain ⟨text⟩ := id
    rw [ofBytes,← same,String.ofList_toList]
  · rintro rfl
    exact String.toList_ofList

theorem hexText_ofBytes (bytes : Vector UInt8 32) : HexText bytes.toList (ofBytes bytes).text.toList :=
  hexText_ofBytes_iff.mpr rfl

theorem length_ofBytes (bytes : Vector UInt8 32) : (ofBytes bytes).text.length = 64 := by
  rw [← String.length_toList,(hexText_ofBytes bytes).length,Vector.length_toList]

theorem isValid_ofBytes (bytes : Vector UInt8 32) : (ofBytes bytes).isValid := by
  rw [isValid_iff_of_isHex (hexText_ofBytes bytes).isHex,length_ofBytes]
  omega

theorem exists_toList_eq_cons (bytes : Vector UInt8 32) : ∃ later, bytes.toList = bytes[0] :: later := by
  obtain ⟨first,later,split⟩ := List.exists_cons_of_length_eq_add_one (bytes.length_toList : _ = 31 + 1)
  have same : bytes.toList[0]? = some bytes[0] := by rw [Vector.getElem?_toList,Vector.getElem?_eq_getElem]
  rw [split,List.getElem?_cons_zero] at same
  cases same
  exact ⟨later,split⟩

theorem isSafe_ofBytes_iff : (ofBytes bytes).isSafe ↔ (0xa0 : UInt8) ≤ bytes[0] := by
  have spelled := hexText_ofBytes bytes
  rw [isSafe_iff_of_isHex spelled.isHex,and_iff_right (isValid_ofBytes bytes),← UInt8.not_lt]
  obtain ⟨later,split⟩ := exists_toList_eq_cons bytes
  rw [split] at spelled
  obtain ⟨c,first,digit_iff⟩ := spelled.exists_first
  rw [← digit_iff]
  constructor
  · rintro ⟨other,same,letter⟩
    cases first.symm.trans same
    exact letter
  · intro letter
    exact ⟨c,first,letter⟩

end

theorem Draw.isPassed_or_ends (draw : Draw) : draw.IsPassed ∨ ∃ outcome, draw.Ends outcome := by
  cases draw with
  | error reason => exact .inr ⟨_,.failure reason⟩
  | ok bytes =>
    obtain low | high := UInt8.lt_or_le bytes[0] 0xa0
    · exact .inl low
    · exact .inr ⟨_,.block high (hexText_ofBytes bytes)⟩

section
variable {draw : Draw} {draws passed rest : List Draw} {outcome : Except Error Id}

theorem random?_of_isPassed (passes : draw.IsPassed) : random? (draw :: draws) = random? draws := by
  cases draw with
  | error _ => exact passes.elim
  | ok bytes =>
    apply if_neg
    rw [Bool.and_eq_true,isSafe_ofBytes_iff]
    exact fun both => UInt8.not_le.mpr passes both.2

theorem random?_of_ends (ends : draw.Ends outcome) : random? (draw :: draws) = some (outcome,draws) := by
  cases ends with
  | failure _ => rfl
  | @block bytes _ high spelled =>
    obtain rfl := hexText_ofBytes_iff.mp spelled
    apply if_pos
    rw [Bool.and_eq_true,isSafe_ofBytes_iff]
    exact ⟨isValid_ofBytes bytes,high⟩

theorem random?_append (passes : ∀ draw ∈ passed, draw.IsPassed) : random? (passed ++ draws) = random? draws := by
  induction passed with
  | nil => rfl
  | cons draw passed ih =>
    obtain ⟨first,later⟩ := List.forall_mem_cons.mp passes
    rw [List.cons_append,random?_of_isPassed first,ih later]

theorem random?_of_passed (passes : ∀ draw ∈ draws, draw.IsPassed) : random? draws = none := by
  have same : random? (draws ++ []) = random? [] := random?_append passes
  rwa [List.append_nil] at same

theorem random?_of_last (before : ∀ draw ∈ passed, draw.IsPassed) (ends : draw.Ends outcome) :
    random? (passed ++ draw :: rest) = some (outcome,rest) := by
  rw [random?_append before,random?_of_ends ends]

/-- Some draw is the first that is not passed over, if there is one. -/
theorem passed_or_last (draws : List Draw) : (∀ draw ∈ draws, draw.IsPassed) ∨ ∃ passed last rest outcome,
    draws = passed ++ last :: rest ∧ (∀ draw ∈ passed, draw.IsPassed) ∧ last.Ends outcome := by
  induction draws with
  | nil => exact .inl (List.forall_mem_nil _)
  | cons draw draws ih =>
    obtain passes | ⟨outcome,ends⟩ := draw.isPassed_or_ends
    · obtain all | ⟨passed,last,rest,outcome,rfl,before,ends⟩ := ih
      · exact .inl (List.forall_mem_cons.mpr ⟨passes,all⟩)
      · exact .inr ⟨draw :: passed,last,rest,outcome,rfl,List.forall_mem_cons.mpr ⟨passes,before⟩,ends⟩
    · exact .inr ⟨[],draw,draws,outcome,rfl,List.forall_mem_nil _,ends⟩

theorem random?_eq_some_iff : random? draws = some (outcome,rest) ↔ ∃ passed last,
    draws = passed ++ last :: rest ∧ (∀ draw ∈ passed, draw.IsPassed) ∧ last.Ends outcome := by
  constructor
  · intro found
    obtain all | ⟨passed,last,later,result,rfl,before,ends⟩ := passed_or_last draws
    · cases (random?_of_passed all).symm.trans found
    · cases (random?_of_last before ends).symm.trans found
      exact ⟨passed,last,rfl,before,ends⟩
  · rintro ⟨passed,last,rfl,before,ends⟩
    exact random?_of_last before ends

theorem random?_eq_none_iff : random? draws = none ↔ ∀ draw ∈ draws, draw.IsPassed := by
  constructor
  · intro missing
    obtain all | ⟨passed,last,rest,outcome,rfl,before,ends⟩ := passed_or_last draws
    · exact all
    · cases (random?_of_last before ends).symm.trans missing
  · exact random?_of_passed

theorem random?_eq_ok {id : Id} (found : random? draws = some (.ok id,rest)) :
    id.text.length = 64 ∧ id.isValid ∧ id.isSafe := by
  obtain ⟨_,_,_,_,ends⟩ := random?_eq_some_iff.mp found
  obtain @⟨bytes,_,high,spelled⟩ := ends
  obtain rfl := hexText_ofBytes_iff.mp spelled
  exact ⟨length_ofBytes bytes,isValid_ofBytes bytes,isSafe_ofBytes_iff.mpr high⟩

end

section
variable {source : Stream' Draw} {place : Nat} {outcome : Except Error Id}

theorem forall_mem_take_iff {A : Type} {items : Stream' A} {holds : A → Prop} {count : Nat} :
    (∀ item ∈ items.take count, holds item) ↔ ∀ place < count, holds (items.get place) := by
  induction count with
  | zero => simp
  | succ count ih =>
    rw [Stream'.take_succ',List.forall_mem_append,ih,List.forall_mem_singleton,Nat.forall_lt_succ_right]

theorem random?_take_eq_some_iff : random? (source.take (place + 1)) = some (outcome,[]) ↔
    (∀ earlier < place, (source.get earlier).IsPassed) ∧ (source.get place).Ends outcome := by
  rw [random?_eq_some_iff,← forall_mem_take_iff,Stream'.take_succ']
  constructor
  · rintro ⟨passed,last,same,before,ends⟩
    obtain ⟨rfl,rfl⟩ := List.append_singleton_inj.mp same
    exact ⟨before,ends⟩
  · rintro ⟨before,ends⟩
    exact ⟨_,_,rfl,before,ends⟩

theorem random?_take_eq_none_iff :
    (∀ count, random? (source.take count) = none) ↔ ∀ place, (source.get place).IsPassed := by
  simp only [random?_eq_none_iff,forall_mem_take_iff]
  constructor
  · intro passes place
    exact passes (place + 1) place (Nat.lt_succ_self place)
  · intro passes _ place _
    exact passes place

end

/-- A search takes the draws up to the first that is not passed over, which ends it: a block gives
its digits, a failure is reported. Of an endless source it takes exactly as many, and it goes on
forever exactly if all draws are passed over. -/
theorem random_by_first_byte :
    (∀ draws outcome rest, random? draws = some (outcome,rest) ↔ ∃ passed last,
      draws = passed ++ last :: rest ∧ (∀ draw ∈ passed, draw.IsPassed) ∧ last.Ends outcome) ∧
    (∀ draws, random? draws = none ↔ ∀ draw ∈ draws, draw.IsPassed) ∧
    (∀ (source : Stream' Draw) place outcome, random? (source.take (place + 1)) = some (outcome,[]) ↔
      (∀ earlier < place, (source.get earlier).IsPassed) ∧ (source.get place).Ends outcome) ∧
    (∀ source : Stream' Draw, (∀ count, random? (source.take count) = none) ↔ ∀ place, (source.get place).IsPassed) ∧
    (∀ draws id rest, random? draws = some (.ok id,rest) → id.text.length = 64 ∧ id.isValid ∧ id.isSafe) ∧
    ∀ id : Id, IsHex id.text.toList → (id.isValid ↔ 1 ≤ id.text.length ∧ id.text.length ≤ 255) ∧
      (id.isSafe ↔ id.isValid ∧ ∃ c ∈ id.text.toList.head?, ¬c.isDigit) := by
  refine ⟨fun _ _ _ => random?_eq_some_iff,fun _ => random?_eq_none_iff,fun _ _ _ => random?_take_eq_some_iff,
    fun _ => random?_take_eq_none_iff,fun _ _ _ => random?_eq_ok,?_⟩
  intro id hex
  exact ⟨isValid_iff_of_isHex hex,isSafe_iff_of_isHex hex⟩

/-- The third draw of a list decides, be it a block or a failure; of two endless sources one is never done. -/
theorem random_by_first_byte_third :
    let zero : Draw := .ok (Vector.replicate 32 0)
    let below : Draw := .ok (Vector.replicate 32 0x9f)
    let above : Draw := .ok (Vector.ofFn fun place => 0xa0 + UInt8.ofNat place.val)
    let id : Id := ⟨"a0a1a2a3a4a5a6a7a8a9aaabacadaeafb0b1b2b3b4b5b6b7b8b9babbbcbdbebf"⟩
    random? [zero,below,above,.error "gone"] = some (.ok id,[.error "gone"]) ∧
      random? [zero,below,.error "gone",above] = some (.error (.entropy "gone"),[above]) ∧
      (id.text.length = 64 ∧ id.isValid ∧ id.isSafe) ∧
      (∀ count, random? ((Stream'.const below).take count) = none) ∧
      random? ((Stream'.const above).take 1) = some (.ok id,[]) ∧
      (⟨"0a"⟩ : Id).isValid ∧ ¬(⟨"0a"⟩ : Id).isSafe := by
  intro zero below above id
  obtain ⟨found,_,counted,endless,returned,hex⟩ := random_by_first_byte
  have passed : ∀ draw ∈ [zero,below], draw.IsPassed := by decide
  have ends : above.Ends (.ok id) := .block (by decide) (hexText_iff.mpr (by decide))
  have third := (found _ _ [.error "gone"]).mpr ⟨_,_,rfl,passed,ends⟩
  have ten : HexText [0x0a] ['0','a'] := .cons 0 10 rfl .nil
  have hexTen := hex ⟨"0a"⟩ ten.isHex
  refine ⟨third,(found _ _ _).mpr ⟨_,_,rfl,passed,.failure _⟩,returned _ _ _ third,?_,?_,?_,?_⟩
  · exact (endless _).mpr fun _ => passed below (by simp)
  · exact (counted _ 0 _).mpr ⟨fun _ earlier => absurd earlier (Nat.not_lt_zero _),ends⟩
  · exact hexTen.1.mpr (by decide)
  · rw [hexTen.2]
    simp

end Jmap.Id
