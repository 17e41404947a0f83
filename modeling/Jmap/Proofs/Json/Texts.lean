import Jmap.Json.Literal
import Mathlib.Tactic.ByContra
import Mathlib.Tactic.SplitIfs

/-! The shortest literal of a text means that text: whatever has to be escaped is
escaped to something that is read as the same character. -/
namespace Jmap.Json

theorem HexDigit.value_ofFin : ∀ n : Fin 16, (HexDigit.ofFin n).value = n := by decide

namespace Literal

/-- All characters that are not plain and have no short escape are controls. -/
theorem control_of_not_plain {c : Char} (refused : ¬isPlain c) (quote : c ≠ '"') (backslash : c ≠ '\\') :
    c.toNat < 0x20 := by
  by_contra large
  apply refused
  simp only [isPlain,Bool.and_eq_true,decide_eq_true_eq,bne_iff_ne]
  exact ⟨⟨by omega,quote⟩,backslash⟩

theorem codeUnit_control {c : Char} (control : c.toNat < 0x20) :
    codeUnit (.ofFin 0) (.ofFin 0) (.ofFin (Fin.ofNat 16 (c.toNat / 16))) (.ofFin (Fin.ofNat 16 c.toNat)) =
      c.toNat := by
  simp only [codeUnit,HexDigit.value_ofFin,Fin.ofNat]
  simp only [Fin.val_zero]
  omega

theorem meaning?_spell (c : Char) (rest : Literal) :
    meaning? (spell c :: rest) = (c :: ·) <$> meaning? rest := by
  unfold spell
  split_ifs with backspace formFeed lineFeed carriageReturn tab quote backslash allowed
  · subst backspace; rfl
  · subst formFeed; rfl
  · subst lineFeed; rfl
  · subst carriageReturn; rfl
  · subst tab; rfl
  · subst quote; rfl
  · subst backslash; rfl
  · rfl
  · have control := control_of_not_plain allowed quote backslash
    have high : isHighSurrogate c.toNat = false := by
      simp only [isHighSurrogate,Bool.and_eq_false_iff,decide_eq_false_iff_not]
      omega
    have low : isLowSurrogate c.toNat = false := by
      simp only [isLowSurrogate,Bool.and_eq_false_iff,decide_eq_false_iff_not]
      omega
    rw [meaning?.eq_def]
    dsimp only
    rw [codeUnit_control control]
    simp [high,low]

theorem meaning?_spelled (cs : List Char) : meaning? (cs.map spell) = some cs := by
  induction cs with
  | nil => rfl
  | cons c cs ih =>
    rw [List.map_cons,meaning?_spell,ih]
    rfl

/-- Quotes, backslashes, controls and characters of any plane survive. -/
@[simp] theorem text?_ofText (text : String) : (ofText text).text? = some text := by
  unfold text? ofText
  rw [meaning?_spelled]
  simp

end Literal
end Jmap.Json
