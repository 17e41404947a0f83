import Jmap.Proofs.Language
import Jmap.Proofs.Pointer.Text

/-! The texts of pointers are a regular language: segments, each behind a slash, of
characters that stand for themselves and of the two escapes. One walk from left to right
decodes a segment; on texts of the language the two replacements of the reader, one after
the other, come to the same. -/
namespace Jmap
open scoped Computability

namespace Pointer

/-- Any character but slash and tilde stands for itself. -/
def bare : Language Char := single fun c => c ≠ '/' ∧ c ≠ '~'

def character : Language Char := bare + {['~','0']} + {['~','1']}

def segment : Language Char := character∗

def path : Language Char := ({['/']} * segment)∗

/-- Both escapes are replaced in one walk from left to right. -/
def decode : List Char → List Char
  | '~' :: '0' :: rest => '~' :: decode rest
  | '~' :: '1' :: rest => '/' :: decode rest
  | c :: rest => c :: decode rest
  | [] => []

/-- The text is made of segments, each behind a slash, and the tokens are what they decode to. -/
def Segmented (text : List Char) (tokens : List String) : Prop :=
  ∃ segments : List (List Char), text = segments.flatMap ('/' :: ·) ∧ (∀ cs ∈ segments, cs ∈ segment) ∧
    tokens = segments.map fun cs => String.ofList (decode cs)

theorem printed_character : Printed character escapeChar := by
  refine (((Printed.single _).add (.word _)).add (.word _)).through ?_ ?_
  · rintro ((⟨c,slash,tilde⟩ | _) | _)
    · exact ⟨c,by rw [escapeChar,if_neg tilde,if_neg slash]; rfl⟩
    · exact ⟨'~',rfl⟩
    · exact ⟨'/',rfl⟩
  · intro c
    rcases escapeChar_cases c with rfl | rfl | ⟨tilde,slash,plain⟩
    · exact ⟨.inl (.inr ()),rfl⟩
    · exact ⟨.inr (),rfl⟩
    · exact ⟨.inl (.inl ⟨c,slash,tilde⟩),plain.symm⟩

theorem printed_segment : Printed segment escaped := printed_character.star

theorem decode_escapeChar (c : Char) (rest : List Char) : decode (escapeChar c ++ rest) = c :: decode rest := by
  rcases escapeChar_cases c with rfl | rfl | ⟨tilde,_,plain⟩
  · rfl
  · rfl
  · rw [plain,List.singleton_append,decode]
    · exact fun _ same _ => tilde same
    · exact fun _ same _ => tilde same

theorem decode_escaped (token : List Char) : decode (escaped token) = token := by
  induction token with
  | nil => rfl
  | cons c token ih => rw [escaped_cons,decode_escapeChar,ih]

/-- The first replacement neither makes nor spoils an escape for the second. -/
theorem unescape_eq_decode {cs : List Char} (inside : cs ∈ segment) : unescape cs = decode cs := by
  obtain ⟨token,rfl⟩ := (printed_segment cs).mp inside
  rw [unescape_escaped,decode_escaped]

theorem segmented_iff {text : List Char} {tokens : List String} : Segmented text tokens ↔ text = spelling tokens := by
  constructor
  · rintro ⟨segments,rfl,inside,rfl⟩
    rw [spelling,List.flatMap_map]
    refine List.flatMap_congr fun cs member => ?_
    obtain ⟨token,rfl⟩ := (printed_segment cs).mp (inside cs member)
    rw [decode_escaped,String.toList_ofList]
  · rintro rfl
    refine ⟨tokens.map fun token => escaped token.toList,?_,?_,?_⟩
    · rw [spelling,List.flatMap_map]
    · intro cs member
      obtain ⟨token,_,rfl⟩ := List.mem_map.mp member
      exact (printed_segment _).mpr ⟨_,rfl⟩
    · simp [Function.comp_def,decode_escaped]

theorem mem_path_iff {text : List Char} : text ∈ path ↔ ∃ tokens, Segmented text tokens := by
  rw [path,((Printed.word ['/']).mul printed_segment).star text]
  constructor
  · rintro ⟨segments,rfl⟩
    refine ⟨segments.map fun cs => String.ofList cs.2,segmented_iff.mpr ?_⟩
    simp [spelling,List.flatMap_map]
  · rintro ⟨tokens,segmented⟩
    rw [segmented_iff.mp segmented]
    exact ⟨tokens.map fun token => ((),token.toList),List.flatMap_map ..⟩

theorem ofText?_eq_some_iff {text : String} {pointer : Pointer} :
    ofText? text = some pointer ↔ pointer.text = text ∧ Segmented text.toList pointer.tokens := by
  rw [segmented_iff]
  constructor
  · intro parsed
    obtain ⟨kept,spelled⟩ := of_ofText? parsed
    refine ⟨kept,?_⟩
    rw [← kept,congrArg Pointer.text spelled,ofTokens,String.toList_ofList]
  · rintro ⟨rfl,spelled⟩
    have same : pointer = ofTokens pointer.tokens := by
      obtain ⟨text,tokens⟩ := pointer
      simp only [ofTokens,← spelled,String.ofList_toList]
    rw [same]
    exact ofText?_text pointer.tokens

theorem ofText?_eq_none_iff {text : String} : ofText? text = none ↔ text.toList ∉ path := by
  rw [Option.eq_none_iff_forall_ne_some,mem_path_iff]
  constructor
  · rintro refused ⟨tokens,segmented⟩
    exact refused ⟨text,tokens⟩ (ofText?_eq_some_iff.mpr ⟨rfl,segmented⟩)
  · intro outside pointer parsed
    exact outside ⟨pointer.tokens,(ofText?_eq_some_iff.mp parsed).2⟩

theorem parse_eq_error_iff {text : String} {cause : Violation} :
    parse text = .error cause ↔ text.toList ∉ path ∧ cause = .invalidPointer text := by
  rw [← ofText?_eq_none_iff,parse]
  cases ofText? text <;> simp [eq_comm]

/-- Exactly the texts of the language are parsed, to the tokens that their segments decode
to, and any other text is reported as a whole. -/
theorem parse_of_language (text : String) :
    ((∃ pointer, parse text = .ok pointer) ↔ text.toList ∈ path) ∧
      (∀ pointer, parse text = .ok pointer ↔ pointer.text = text ∧ Segmented text.toList pointer.tokens) ∧
      ∀ cause, parse text = .error cause ↔ text.toList ∉ path ∧ cause = .invalidPointer text := by
  have accepted : ∀ pointer, parse text = .ok pointer ↔ pointer.text = text ∧ Segmented text.toList pointer.tokens :=
    fun pointer => parse_eq_ok_iff.trans ofText?_eq_some_iff
  refine ⟨?_,accepted,fun cause => parse_eq_error_iff⟩
  rw [mem_path_iff]
  constructor
  · rintro ⟨pointer,parsed⟩
    exact ⟨pointer.tokens,((accepted pointer).mp parsed).2⟩
  · rintro ⟨tokens,segmented⟩
    exact ⟨⟨text,tokens⟩,(accepted ⟨text,tokens⟩).mpr ⟨rfl,segmented⟩⟩

end Pointer
end Jmap
