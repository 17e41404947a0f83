import Jmap.Proofs.Json.Source
import Jmap.Proofs.Language

/-! The grammar of JSON over characters. Numbers and string literals are regular; values,
arrays and objects are nested in each other. Beside the text of an array stand its items,
as the slices of the text that they are. -/
namespace Jmap.Json.Grammar
open scoped Computability

def gap : Language Char := (single (· ∈ [' ','\t','\n','\r']))∗

def digit : Language Char := single fun c => '0'.toNat ≤ c.toNat ∧ c.toNat ≤ '9'.toNat

def someDigits : Language Char := digit * digit∗

/-- Zero stands alone. -/
def whole : Language Char := {['0']} + single (fun c => '1'.toNat ≤ c.toNat ∧ c.toNat ≤ '9'.toNat) * digit∗

def fraction : Language Char := {['.']} * someDigits

def exponent : Language Char := single (· ∈ ['e','E']) * (1 + single (· ∈ ['+','-'])) * someDigits

def number : Language Char := (1 + {['-']}) * (whole * ((1 + fraction) * (1 + exponent)))

def unescaped : Language Char := single fun c => 0x20 ≤ c.toNat ∧ c ≠ '"' ∧ c ≠ '\\'

def shortEscape : Language Char := {['\\']} * single (· ∈ ['"','\\','/','b','f','n','r','t'])

def hexDigit : Language Char :=
  single fun c => ('0' ≤ c ∧ c ≤ '9') ∨ ('a' ≤ c ∧ c ≤ 'f') ∨ ('A' ≤ c ∧ c ≤ 'F')

def unicodeEscape : Language Char := {['\\','u']} * (hexDigit * (hexDigit * (hexDigit * hexDigit)))

def string : Language Char := {['"']} * ((unescaped + shortEscape + unicodeEscape)∗ * {['"']})

/-- A key with its colon and the blanks around both. -/
def label : Language Char := gap * (string * (gap * ({[':']} * gap)))

mutual
inductive ValueText : List Char → Prop where
  | null : ValueText ['n','u','l','l']
  | true : ValueText ['t','r','u','e']
  | false : ValueText ['f','a','l','s','e']
  | number {cs : List Char} (literal : cs ∈ number) : ValueText cs
  | string {cs : List Char} (literal : cs ∈ string) : ValueText cs
  | array {parts : List (List Char)} {cs : List Char} (array : ArrayText parts cs) : ValueText cs
  | object {cs : List Char} (object : ObjectText cs) : ValueText cs
/-- The parts are the texts of the items, without the blanks around them. -/
inductive ArrayText : List (List Char) → List Char → Prop where
  | empty {inside : List Char} (blank : inside ∈ gap) : ArrayText [] ('[' :: (inside ++ [']']))
  | items {parts : List (List Char)} {cs : List Char} (items : ItemsText parts cs) : ArrayText parts ('[' :: (cs ++ [']']))
inductive ItemsText : List (List Char) → List Char → Prop where
  | last {before part after : List Char} (blank : before ∈ gap) (value : ValueText part) (blankAfter : after ∈ gap) :
    ItemsText [part] (before ++ (part ++ after))
  | more {before part after rest : List Char} {parts : List (List Char)} (blank : before ∈ gap) (value : ValueText part)
    (blankAfter : after ∈ gap) (later : ItemsText parts rest) :
    ItemsText (part :: parts) (before ++ (part ++ (after ++ ',' :: rest)))
inductive ObjectText : List Char → Prop where
  | empty {inside : List Char} (blank : inside ∈ gap) : ObjectText ('\x7b' :: (inside ++ ['\x7d']))
  | members {cs : List Char} (members : MembersText cs) : ObjectText ('\x7b' :: (cs ++ ['\x7d']))
inductive MembersText : List Char → Prop where
  | last {front part after : List Char} (key : front ∈ label) (value : ValueText part) (blank : after ∈ gap) :
    MembersText (front ++ (part ++ after))
  | more {front part after rest : List Char} (key : front ∈ label) (value : ValueText part) (blank : after ∈ gap)
    (later : MembersText rest) : MembersText (front ++ (part ++ (after ++ ',' :: rest)))
end

theorem printed_gap : Printed gap Gap.print := by
  have blank : Printed (single (· ∈ [' ','\t','\n','\r'])) fun blank : Blank => [blank.char] :=
    .oneOf Blank.char [.space,.tab,.lineFeed,.carriageReturn] fun blank => by cases blank <;> decide
  exact blank.letters

theorem printed_digit : Printed digit fun digit : Digit => [digit.char] := by
  refine (Printed.single _).through ?_ ?_
  · rintro ⟨c,inside⟩
    have read : Digit.ofChar? c = some _ := dif_pos inside
    exact ⟨_,congrArg (fun c => [c]) (Digit.char_of_ofChar? read)⟩
  · intro digit
    exact ⟨⟨digit.char,by revert digit; decide⟩,rfl⟩

theorem printed_digits : Printed digit∗ Digits.print := printed_digit.letters

theorem printed_someDigits : Printed someDigits fun digits : SomeDigits => Digits.print digits.toList :=
  (printed_digit.mul printed_digits).through (fun ⟨first,rest⟩ => ⟨⟨first,rest⟩,rfl⟩)
    fun ⟨first,rest⟩ => ⟨(first,rest),rfl⟩

theorem printed_whole : Printed whole fun whole : Whole => Digits.print whole.digits.toList := by
  have leading : Printed (single fun c => '1'.toNat ≤ c.toNat ∧ c.toNat ≤ '9'.toNat)
      fun digit : {digit : Digit // digit ≠ .zero} => [digit.val.char] := by
    refine (Printed.single _).through ?_ ?_
    · rintro ⟨c,inside⟩
      have larger : '0'.toNat ≤ '1'.toNat := by decide
      have read : Digit.ofChar? c = some _ := dif_pos ⟨by omega,inside.2⟩
      refine ⟨⟨_,fun zero => ?_⟩,congrArg (fun c => [c]) (Digit.char_of_ofChar? read)⟩
      rw [zero] at read
      have zero : c = '0' := (Digit.char_of_ofChar? read).symm
      exact absurd inside.1 (by rw [zero]; decide)
    · rintro ⟨digit,positive⟩
      exact ⟨⟨digit.char,by revert digit; decide⟩,rfl⟩
  refine ((Printed.word ['0']).add (leading.mul printed_digits)).through ?_ ?_
  · rintro (_ | ⟨⟨first,positive⟩,rest⟩)
    · exact ⟨.zero,rfl⟩
    · exact ⟨⟨⟨first,rest⟩,fun zero => absurd zero positive⟩,rfl⟩
  · rintro ⟨⟨first,rest⟩,noLeadingZero⟩
    by_cases zero : first = .zero
    · cases zero
      have alone : rest = [] := noLeadingZero rfl
      subst alone
      exact ⟨.inl (),rfl⟩
    · exact ⟨.inr (⟨first,zero⟩,rest),rfl⟩

theorem printed_fraction : Printed (1 + fraction) NumberLiteral.printFraction :=
  ((Printed.word ['.']).mul printed_someDigits).optional.through
    (fun
      | none => ⟨none,rfl⟩
      | some ((),digits) => ⟨some digits,rfl⟩)
    fun
      | none => ⟨none,rfl⟩
      | some digits => ⟨some ((),digits),rfl⟩

theorem printed_exponent : Printed (1 + exponent) NumberLiteral.printExponent := by
  have mark : Printed (single (· ∈ ['e','E'])) fun capital : Bool => [if capital then 'E' else 'e'] :=
    .oneOf (fun capital : Bool => if capital then 'E' else 'e') [false,true] (by decide)
  have plusOrMinus : Printed (single (· ∈ ['+','-'])) fun minus : Bool => [if minus then '-' else '+'] :=
    .oneOf (fun minus : Bool => if minus then '-' else '+') [false,true] (by decide)
  have sign : Printed (1 + single (· ∈ ['+','-'])) Sign.print := by
    refine plusOrMinus.optional.through ?_ ?_
    · rintro (_ | _ | _)
      exacts [⟨.unsigned,rfl⟩,⟨.plus,rfl⟩,⟨.minus,rfl⟩]
    · rintro (_ | _ | _)
      exacts [⟨none,rfl⟩,⟨some false,rfl⟩,⟨some true,rfl⟩]
  refine ((mark.mul sign).mul printed_someDigits).optional.through ?_ ?_
  · rintro (_ | ⟨⟨capital,sign⟩,digits⟩)
    · exact ⟨none,rfl⟩
    · exact ⟨some ⟨capital,sign,digits⟩,rfl⟩
  · rintro (_ | ⟨capital,sign,digits⟩)
    · exact ⟨none,rfl⟩
    · exact ⟨some ((capital,sign),digits),rfl⟩

theorem printed_minus : Printed (1 + {['-']}) fun negative : Bool => if negative then ['-'] else [] :=
  (Printed.word ['-']).optional.through (fun sign => ⟨sign.isSome,by cases sign <;> rfl⟩)
    fun negative => ⟨if negative then some () else none,by cases negative <;> rfl⟩

theorem printed_number : Printed number NumberLiteral.print := by
  refine (printed_minus.mul (printed_whole.mul (printed_fraction.mul printed_exponent))).through ?_ ?_
  · rintro ⟨negative,whole,fraction,exponent⟩
    exact ⟨⟨negative,whole,fraction,exponent⟩,by cases negative <;> rfl⟩
  · rintro ⟨negative,whole,fraction,exponent⟩
    exact ⟨(negative,whole,fraction,exponent),by cases negative <;> rfl⟩

theorem isSome_hexValue? {c : Char} : (hexValue? c).isSome ↔
    ('0' ≤ c ∧ c ≤ '9') ∨ ('a' ≤ c ∧ c ≤ 'f') ∨ ('A' ≤ c ∧ c ≤ 'F') := by
  unfold hexValue?
  split_ifs <;> simp_all

theorem printed_hexDigit : Printed hexDigit fun digit : HexDigit => [digit.char] :=
  (Printed.single _).through (fun ⟨c,hex⟩ => ⟨⟨c,isSome_hexValue?.mpr hex⟩,rfl⟩)
    fun ⟨c,hex⟩ => ⟨⟨c,isSome_hexValue?.mp hex⟩,rfl⟩

theorem printed_piece : Printed (unescaped + shortEscape + unicodeEscape) Piece.print := by
  have letter : Printed (single (· ∈ ['"','\\','/','b','f','n','r','t'])) fun short : Escape => [short.letter] :=
    .oneOf Escape.letter [.quote,.backslash,.slash,.backspace,.formFeed,.lineFeed,.carriageReturn,.tab]
      fun short => by cases short <;> decide
  have short := (Printed.word ['\\']).mul letter
  have unicode := (Printed.word ['\\','u']).mul
    (printed_hexDigit.mul (printed_hexDigit.mul (printed_hexDigit.mul printed_hexDigit)))
  refine (((Printed.single _).add short).add unicode).through ?_ ?_
  · rintro ((⟨c,large,quote,backslash⟩ | ⟨_,short⟩) | ⟨_,a,b,c,d⟩)
    · exact ⟨.plain c (by simp [isPlain,large,quote,backslash]),rfl⟩
    · exact ⟨.escape short,rfl⟩
    · exact ⟨.unicode a b c d,rfl⟩
  · rintro (⟨c,allowed⟩ | short | ⟨a,b,c,d⟩)
    · have plain : 0x20 ≤ c.toNat ∧ c ≠ '"' ∧ c ≠ '\\' := by simpa [isPlain,and_assoc] using allowed
      exact ⟨.inl (.inl ⟨c,plain⟩),rfl⟩
    · exact ⟨.inl (.inr ((),short)),rfl⟩
    · exact ⟨.inr ((),a,b,c,d),rfl⟩

theorem printed_string : Printed string Literal.print :=
  ((Printed.word ['"']).mul (printed_piece.star.mul (.word ['"']))).through (fun ⟨_,pieces,_⟩ => ⟨pieces,rfl⟩)
    fun pieces => ⟨((),pieces,()),rfl⟩

theorem printed_label : Printed label Label.print := by
  have parts := printed_gap.mul (printed_string.mul (printed_gap.mul ((Printed.word [':']).mul printed_gap)))
  refine parts.through ?_ ?_
  · rintro ⟨before,key,beforeColon,_,afterColon⟩
    exact ⟨⟨before,key,beforeColon,afterColon⟩,by simp [Label.print]⟩
  · rintro ⟨before,key,beforeColon,afterColon⟩
    exact ⟨(before,key,beforeColon,(),afterColon),by simp [Label.print]⟩

end Jmap.Json.Grammar
