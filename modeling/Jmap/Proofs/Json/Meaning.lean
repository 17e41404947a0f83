import Jmap.Proofs.Json.Derivation

/-! What a string of the grammar stands for, one character after the other. A character
outside the basic plane is escaped as two surrogates; half a pair stands for nothing. -/
namespace Jmap.Json
open Outcome

namespace Grammar

def shortEscapes : List (Char × Char) :=
  [('"','"'),('\\','\\'),('/','/'),('b','\x08'),('f','\x0c'),('n','\n'),('r','\r'),('t','\t')]

/-- Four hexadecimal digits and the number that they write. -/
def CodeUnit (digits : List Char) (unit : Nat) : Prop :=
  ∃ a b c d, digits.map hexValue? = [some a,some b,some c,some d] ∧ unit = ((a * 16 + b) * 16 + c) * 16 + d

/-- One character in any of its spellings. -/
inductive CharText : List Char → Char → Prop where
  | plain {c : Char} (allowed : [c] ∈ unescaped) : CharText [c] c
  | short {letter c : Char} (listed : (letter,c) ∈ shortEscapes) : CharText ['\\',letter] c
  | scalar {digits : List Char} {c : Char} (digitsUnit : CodeUnit digits c.toNat) : CharText ('\\' :: 'u' :: digits) c
  | pair {first second : List Char} {high low : Nat} {c : Char} (firstUnit : CodeUnit first high)
    (secondUnit : CodeUnit second low) (inHigh : 0xD800 ≤ high ∧ high < 0xDC00) (inLow : 0xDC00 ≤ low ∧ low < 0xE000)
    (point : c.toNat = 0x10000 + (high - 0xD800) * 0x400 + (low - 0xDC00)) :
    CharText ('\\' :: 'u' :: first ++ '\\' :: 'u' :: second) c

inductive Means : List Char → List Char → Prop where
  | nil : Means [] []
  | cons {piece cs : List Char} {c : Char} {text : List Char} (first : CharText piece c) (later : Means cs text) :
    Means (piece ++ cs) (c :: text)

def StringText (cs : List Char) (text : String) : Prop :=
  ∃ inside, Means inside text.toList ∧ cs = '"' :: (inside ++ ['"'])

theorem mem_shortEscapes_iff {letter c : Char} :
    (letter,c) ∈ shortEscapes ↔ ∃ short : Escape, short.letter = letter ∧ short.meaning = c := by
  constructor
  · have each : ∀ entry ∈ shortEscapes, ∃ short ∈ [Escape.quote,.backslash,.slash,.backspace,.formFeed,.lineFeed,
        .carriageReturn,.tab], short.letter = entry.1 ∧ short.meaning = entry.2 := by decide
    intro listed
    obtain ⟨short,_,same⟩ := each _ listed
    exact ⟨short,same⟩
  · rintro ⟨short,rfl,rfl⟩
    cases short <;> decide

theorem mem_unescaped_iff {c : Char} : [c] ∈ unescaped ↔ isPlain c := by
  have same : [c] ∈ unescaped ↔ 0x20 ≤ c.toNat ∧ c ≠ '"' ∧ c ≠ '\\' :=
    ⟨fun ⟨_,allowed,rfl⟩ => allowed,fun allowed => ⟨c,allowed,rfl⟩⟩
  simp [same,isPlain,and_assoc]

theorem codeUnit_iff {digits : List Char} {unit : Nat} : CodeUnit digits unit ↔
    ∃ a b c d : HexDigit, digits = [a.char,b.char,c.char,d.char] ∧ unit = Literal.codeUnit a b c d := by
  have value (digit : HexDigit) : hexValue? digit.char = some digit.value := by simp [HexDigit.value]
  constructor
  · rintro ⟨a,b,c,d,values,rfl⟩
    simp only [List.map_eq_cons_iff,List.map_eq_nil_iff] at values
    obtain ⟨first,_,rfl,firstValue,second,_,rfl,secondValue,third,_,rfl,thirdValue,fourth,_,rfl,fourthValue,rfl⟩ := values
    refine ⟨⟨first,by simp [firstValue]⟩,⟨second,by simp [secondValue]⟩,⟨third,by simp [thirdValue]⟩,
      ⟨fourth,by simp [fourthValue]⟩,rfl,?_⟩
    simp [Literal.codeUnit,HexDigit.value,firstValue,secondValue,thirdValue,fourthValue]
  · rintro ⟨a,b,c,d,rfl,rfl⟩
    exact ⟨a.value,b.value,c.value,d.value,by simp [value],rfl⟩

end Grammar
open Grammar

theorem hexValue?_lt {c : Char} {n : Nat} (value : hexValue? c = some n) : n < 16 := by
  have bounded {first last : Char} (inside : first ≤ c ∧ c ≤ last) : first.toNat ≤ c.toNat ∧ c.toNat ≤ last.toNat :=
    ⟨UInt32.le_iff_toNat_le.mp inside.1,UInt32.le_iff_toNat_le.mp inside.2⟩
  have nine : '9'.toNat = '0'.toNat + 9 := by decide
  have small : 'f'.toNat = 'a'.toNat + 5 := by decide
  have capital : 'F'.toNat = 'A'.toNat + 5 := by decide
  unfold hexValue? at value
  split_ifs at value with digit lower upper
  · have range := bounded digit
    cases value
    omega
  · have range := bounded lower
    cases value
    omega
  · have range := bounded upper
    cases value
    omega

theorem HexDigit.value_lt (digit : HexDigit) : digit.value < 16 :=
  hexValue?_lt (Option.some_get digit.isHex).symm

namespace Literal

theorem toNat_ofNat {n : Nat} (valid : n.isValidChar) : (Char.ofNat n).toNat = n := by
  rw [Char.ofNat,dif_pos valid]
  rfl

theorem charText_scalar {a b c d : HexDigit} (high : ¬isHighSurrogate (codeUnit a b c d))
    (low : ¬isLowSurrogate (codeUnit a b c d)) :
    CharText (Piece.unicode a b c d).print (Char.ofNat (codeUnit a b c d)) := by
  have bound : codeUnit a b c d < 0x10000 := by
    have first := a.value_lt
    have second := b.value_lt
    have third := c.value_lt
    have fourth := d.value_lt
    unfold codeUnit
    omega
  simp only [isHighSurrogate,isLowSurrogate,Bool.and_eq_true,decide_eq_true_eq] at high low
  have valid : (codeUnit a b c d).isValidChar := by
    unfold Nat.isValidChar
    omega
  exact .scalar (codeUnit_iff.mpr ⟨a,b,c,d,rfl,toNat_ofNat valid⟩)

theorem charText_pair {a b c d e f g h : HexDigit} (high : isHighSurrogate (codeUnit a b c d))
    (low : isLowSurrogate (codeUnit e f g h)) :
    CharText ((Piece.unicode a b c d).print ++ (Piece.unicode e f g h).print)
      (Char.ofNat (0x10000 + (codeUnit a b c d - 0xD800) * 0x400 + (codeUnit e f g h - 0xDC00))) := by
  simp only [isHighSurrogate,isLowSurrogate,Bool.and_eq_true,decide_eq_true_eq] at high low
  have valid : (0x10000 + (codeUnit a b c d - 0xD800) * 0x400 + (codeUnit e f g h - 0xDC00)).isValidChar := by
    unfold Nat.isValidChar
    omega
  exact .pair (codeUnit_iff.mpr ⟨a,b,c,d,rfl,rfl⟩) (codeUnit_iff.mpr ⟨e,f,g,h,rfl,rfl⟩) high low (toNat_ofNat valid)

theorem means_of_meaning? : ∀ {literal : Literal} {text : List Char}, meaning? literal = some text →
    Means (literal.flatMap Piece.print) text
  | [],_,meaning => by
    cases meaning
    exact .nil
  | .plain c allowed :: rest,_,meaning => by
    obtain ⟨text,later,rfl⟩ := Option.map_eq_some_iff.mp meaning
    exact .cons (.plain (mem_unescaped_iff.mpr allowed)) (means_of_meaning? later)
  | .escape short :: rest,_,meaning => by
    obtain ⟨text,later,rfl⟩ := Option.map_eq_some_iff.mp meaning
    exact .cons (.short (mem_shortEscapes_iff.mpr ⟨short,rfl,rfl⟩)) (means_of_meaning? later)
  | .unicode a b c d :: rest,_,meaning => by
    rw [meaning?.eq_def] at meaning
    dsimp only at meaning
    split at meaning
    next high =>
      split at meaning
      next e f g h rest =>
        split at meaning
        next low =>
          obtain ⟨text,later,rfl⟩ := Option.map_eq_some_iff.mp meaning
          rw [List.flatMap_cons,List.flatMap_cons,← List.append_assoc]
          exact .cons (charText_pair high low) (means_of_meaning? later)
        next => contradiction
      next => contradiction
    next high =>
      split at meaning
      next => contradiction
      next low =>
        obtain ⟨text,later,rfl⟩ := Option.map_eq_some_iff.mp meaning
        exact .cons (charText_scalar high low) (means_of_meaning? later)

/-- Whatever a character is written as, there are pieces that are read as it. -/
theorem exists_pieces {piece : List Char} {c : Char} (spelled : CharText piece c) :
    ∃ front : Literal, front.flatMap Piece.print = piece ∧
      ∀ rest, meaning? (front ++ rest) = (c :: ·) <$> meaning? rest := by
  cases spelled with
  | plain allowed => exact ⟨[.plain c (mem_unescaped_iff.mp allowed)],rfl,fun _ => rfl⟩
  | short listed =>
    obtain ⟨short,rfl,rfl⟩ := mem_shortEscapes_iff.mp listed
    exact ⟨[.escape short],rfl,fun _ => rfl⟩
  | scalar unit =>
    obtain ⟨first,second,third,fourth,rfl,same⟩ := codeUnit_iff.mp unit
    refine ⟨[.unicode first second third fourth],rfl,fun rest => ?_⟩
    -- No character is a surrogate, so the unit is not taken for half a pair.
    have valid : c.toNat < 0xD800 ∨ 0xDFFF < c.toNat ∧ c.toNat < 0x110000 := c.valid
    have high : isHighSurrogate c.toNat = false := by
      simp only [isHighSurrogate,Bool.and_eq_false_iff,decide_eq_false_iff_not]
      omega
    have low : isLowSurrogate c.toNat = false := by
      simp only [isLowSurrogate,Bool.and_eq_false_iff,decide_eq_false_iff_not]
      omega
    rw [List.singleton_append,meaning?.eq_def]
    simp only [← same,high,low,Char.ofNat_toNat,Bool.false_eq_true,if_false]
  | pair firstUnit secondUnit inHigh inLow point =>
    obtain ⟨a,b,c,d,rfl,rfl⟩ := codeUnit_iff.mp firstUnit
    obtain ⟨e,f,g,h,rfl,rfl⟩ := codeUnit_iff.mp secondUnit
    refine ⟨[.unicode a b c d,.unicode e f g h],rfl,fun rest => ?_⟩
    have high : isHighSurrogate (codeUnit a b c d) := by simpa [isHighSurrogate] using inHigh
    have low : isLowSurrogate (codeUnit e f g h) := by simpa [isLowSurrogate] using inLow
    rw [List.cons_append,List.singleton_append,meaning?.eq_def]
    simp only [high,low,← point,Char.ofNat_toNat,if_true]

theorem exists_literal {inside text : List Char} (means : Means inside text) :
    ∃ literal : Literal, literal.flatMap Piece.print = inside ∧ meaning? literal = some text := by
  induction means with
  | nil => exact ⟨[],rfl,rfl⟩
  | cons first _ ih =>
    obtain ⟨front,rfl,step⟩ := exists_pieces first
    obtain ⟨rest,rfl,meaning⟩ := ih
    exact ⟨front ++ rest,List.flatMap_append,by rw [step,meaning]; rfl⟩

end Literal

namespace Reader

/-- A text is read from the strings that stand for it, and from nothing else. -/
theorem text_ofRaw_eq_ok_iff {raw : Raw} {text : String} :
    Reader.text.ofRaw raw = .ok text ↔ StringText raw.text.toList text := by
  obtain ⟨node,closed⟩ := raw
  rw [Raw.toList_text,ofRaw]
  constructor
  · intro read
    cases node with
    | string literal =>
      obtain ⟨cs,meaning,rfl⟩ := Option.map_eq_some_iff.mp (ofOption_eq_ok_iff.mp read)
      exact ⟨_,by simpa using Literal.means_of_meaning? meaning,rfl⟩
    | _ => contradiction
  · rintro ⟨inside,means,same⟩
    obtain ⟨literal,rfl,meaning⟩ := Literal.exists_literal means
    have found : node = .string literal := Node.eq_of_print closed rfl same
    subst found
    simp [Reader.text,Literal.text?,meaning,ofOption]

theorem text_ofRaw_eq_error_iff {raw : Raw} {defect : Defect} :
    Reader.text.ofRaw raw = .error defect ↔ defect = .malformed ∧ ∀ text, ¬StringText raw.text.toList text := by
  simp only [← text_ofRaw_eq_ok_iff]
  constructor
  · intro failed
    exact ⟨Uniform.text _ _ _ failed,by simp [failed]⟩
  · rintro ⟨rfl,unread⟩
    cases read : Reader.text.ofRaw raw with
    | ok text => exact absurd read (unread text)
    | error defect => rw [Uniform.text _ _ _ read]

end Reader
end Jmap.Json
