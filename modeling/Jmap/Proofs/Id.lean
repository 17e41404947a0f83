import Jmap.Id

/-! Which texts are identifiers, and which of these are safe. A valid text of hexadecimal
digits is safe unless it starts with a decimal one. -/
namespace Jmap.Id

theorem utf8Size_of_isAllowed {c : Char} (allowed : isAllowed c) : c.utf8Size = 1 := by
  rw [Char.utf8Size_eq_one_iff]
  rw [isAllowed,Bool.or_eq_true,Bool.or_eq_true,beq_iff_eq,beq_iff_eq] at allowed
  obtain ((alphanumeric | rfl) | rfl) := allowed
  · obtain letter | digit := Bool.or_eq_true_iff.mp alphanumeric
    · obtain upper | lower := Bool.or_eq_true_iff.mp letter
      · exact UInt32.le_trans (of_decide_eq_true upper).2 (by decide)
      · exact UInt32.le_trans (of_decide_eq_true (Bool.and_eq_true_iff.mp lower).2) (by decide)
    · exact UInt32.le_trans (of_decide_eq_true (Bool.and_eq_true_iff.mp digit).2) (by decide)
  · decide
  · decide

theorem utf8ByteSize_of_allowed {cs : List Char} (allowed : ∀ c ∈ cs, isAllowed c) :
    (String.ofList cs).utf8ByteSize = cs.length := by
  induction cs with
  | nil => rfl
  | cons c cs ih =>
    have later := ih fun other inside => allowed other (List.mem_cons_of_mem c inside)
    have first := utf8Size_of_isAllowed (allowed c List.mem_cons_self)
    rw [String.ofList_cons,String.utf8ByteSize_append,String.utf8ByteSize_singleton,later,first,List.length_cons,
      Nat.add_comm]

/-- The bytes of an identifier are its characters. -/
theorem isValid_iff {id : Id} : id.isValid ↔
    (1 ≤ id.text.length ∧ id.text.length ≤ 255) ∧ ∀ c ∈ id.text.toList, isAllowed c := by
  simp only [isValid,Bool.and_eq_true,decide_eq_true_iff,List.all_eq_true]
  apply and_congr_left
  intro allowed
  have size := utf8ByteSize_of_allowed allowed
  rw [String.ofList_toList,String.length_toList] at size
  rw [size]

/-- A text that does not start with a digit is not made of digits only, so there is no need to look. -/
theorem isSafe_iff {id : Id} : id.isSafe ↔
    id.isValid ∧ (∃ c ∈ id.text.toList.head?, c ≠ '-' ∧ ¬c.isDigit) ∧ id.text ≠ "NIL" := by
  simp only [isSafe,Bool.and_eq_true,Option.any_eq_true,bne_iff_ne,Bool.not_eq_true',Bool.not_eq_true,and_assoc]
  constructor
  · rintro ⟨valid,start,_,nil⟩
    exact ⟨valid,start,nil⟩
  · rintro ⟨valid,⟨c,first,start⟩,nil⟩
    have mixed : id.text.toList.all Char.isDigit = false :=
      List.all_eq_false.mpr ⟨c,List.mem_of_mem_head? first,Bool.eq_false_iff.mp start.2⟩
    exact ⟨valid,⟨c,first,start⟩,mixed,nil⟩

def hexDigit : Fin 16 → Char :=
  Vector.get #v['0','1','2','3','4','5','6','7','8','9','a','b','c','d','e','f']

def IsHex (cs : List Char) : Prop := ∀ c ∈ cs, ∃ value, hexDigit value = c

/-- Two digits for each byte, the higher one first. -/
inductive HexText : List UInt8 → List Char → Prop where
  | nil : HexText [] []
  | cons {byte : UInt8} {bytes : List UInt8} {cs : List Char} (high low : Fin 16)
    (value : byte.toNat = 16 * high.val + low.val) (rest : HexText bytes cs) :
    HexText (byte :: bytes) (hexDigit high :: hexDigit low :: cs)

theorem isDigit_hexDigit : ∀ value, (hexDigit value).isDigit ↔ value.val < 10 := by decide

theorem isAllowed_of_hex {c : Char} (hex : ∃ value, hexDigit value = c) : isAllowed c ∧ c ≠ '-' ∧ c ≠ 'N' := by
  obtain ⟨value,rfl⟩ := hex
  revert value
  decide

theorem isValid_iff_of_isHex {id : Id} (hex : IsHex id.text.toList) :
    id.isValid ↔ 1 ≤ id.text.length ∧ id.text.length ≤ 255 := by
  rw [isValid_iff]
  exact and_iff_left fun c inside => (isAllowed_of_hex (hex c inside)).1

/-- No digit is a hyphen or the `N` of `NIL`, so the other rules hold by themselves. -/
theorem isSafe_iff_of_isHex {id : Id} (hex : IsHex id.text.toList) :
    id.isSafe ↔ id.isValid ∧ ∃ c ∈ id.text.toList.head?, ¬c.isDigit := by
  rw [isSafe_iff]
  apply and_congr_right
  intro _
  constructor
  · rintro ⟨⟨c,first,_,letter⟩,_⟩
    exact ⟨c,first,letter⟩
  · rintro ⟨c,first,letter⟩
    have inside := List.mem_of_mem_head? first
    refine ⟨⟨c,first,(isAllowed_of_hex (hex c inside)).2.1,letter⟩,?_⟩
    intro nil
    have capital : 'N' ∈ id.text.toList := by rw [nil]; exact List.mem_cons_self
    exact (isAllowed_of_hex (hex 'N' capital)).2.2 rfl

namespace HexText
variable {byte : UInt8} {bytes : List UInt8} {cs : List Char}

theorem isHex (spelled : HexText bytes cs) : IsHex cs := by
  induction spelled with
  | nil => exact fun _ inside => absurd inside List.not_mem_nil
  | cons high low _ _ ih =>
    intro c inside
    rw [List.mem_cons,List.mem_cons] at inside
    obtain rfl | rfl | later := inside
    · exact ⟨high,rfl⟩
    · exact ⟨low,rfl⟩
    · exact ih c later

theorem length (spelled : HexText bytes cs) : cs.length = 2 * bytes.length := by
  induction spelled with
  | nil => rfl
  | cons _ _ _ _ ih => simp only [List.length_cons,ih,Nat.mul_add]

theorem exists_first (spelled : HexText (byte :: bytes) cs) :
    ∃ c ∈ cs.head?, c.isDigit ↔ byte < 0xa0 := by
  obtain _ | ⟨high,low,value,_⟩ := spelled
  refine ⟨_,rfl,?_⟩
  rw [isDigit_hexDigit,UInt8.lt_iff_toNat_lt]
  -- Letters stand for ten and more, and 0xa0 is ten times sixteen.
  change _ ↔ byte.toNat < 160
  omega

end HexText
end Jmap.Id
