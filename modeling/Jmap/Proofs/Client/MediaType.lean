import Jmap.Client.Exchange
import Mathlib.Data.List.TakeWhile
import Mathlib.Logic.Relation

/-! The media type that a content type names. Blanks around it, the case of its letters
and what follows the first semicolon do not count. -/
namespace Jmap

namespace Text

/-- A capital letter, or a character that is none. -/
theorem toLower_cases (c : Char) : c.toLower = c ∨ ∃ i : Fin 26, c = Char.ofNat ('A'.toNat + i) := by
  by_cases capital : c.val ≥ 'A'.val ∧ c.val ≤ 'Z'.val
  · have low : 'A'.toNat ≤ c.toNat := capital.1
    have high : c.toNat ≤ 'A'.toNat + 25 := capital.2
    refine .inr ⟨⟨c.toNat - 'A'.toNat,by omega⟩,?_⟩
    have whole : 'A'.toNat + (c.toNat - 'A'.toNat) = c.toNat := by omega
    rw [whole,Char.ofNat_toNat]
  · exact .inl (dif_neg capital)

theorem isBlank_toLower (c : Char) : isBlank c.toLower = isBlank c := by
  rcases toLower_cases c with same | ⟨i,rfl⟩
  · rw [same]
  · revert i
    decide

theorem trim_map_toLower (text : List Char) : trim (text.map Char.toLower) = (trim text).map Char.toLower := by
  have blanks : isBlank ∘ Char.toLower = isBlank := funext isBlank_toLower
  simp only [trim,List.dropWhile_map,← List.map_reverse,blanks]

/-- What is cut off at the ends is blank. -/
theorem exists_trim (text : List Char) : ∃ before after, text = before ++ (trim text ++ after) ∧
    (∀ c ∈ before, isBlank c) ∧ ∀ c ∈ after, isBlank c := by
  refine ⟨text.takeWhile isBlank,((text.dropWhile isBlank).reverse.takeWhile isBlank).reverse,?_,?_,?_⟩
  · rw [trim,← List.reverse_append,List.takeWhile_append_dropWhile,List.reverse_reverse,
      List.takeWhile_append_dropWhile]
  · exact fun c member => List.mem_takeWhile_imp member
  · exact fun c member => List.mem_takeWhile_imp (List.mem_reverse.mp member)

theorem trim_of_blanks {before word after : List Char} (blank : ∀ c ∈ before, isBlank c)
    (solid : ∀ c ∈ word, isBlank c = false) (blankAfter : ∀ c ∈ after, isBlank c) :
    trim (before ++ (word ++ after)) = word := by
  have stops {cs : List Char} (none : ∀ c ∈ cs, isBlank c = false) : cs.dropWhile isBlank = cs := by
    cases cs with
    | nil => rfl
    | cons c cs => rw [List.dropWhile_cons_of_neg (by simp [none c])]
  rw [trim,List.dropWhile_append_of_pos blank]
  cases word with
  | nil =>
    rw [List.nil_append,List.dropWhile_eq_nil_iff.mpr blankAfter]
    rfl
  | cons c word =>
    have front : (c :: word ++ after).dropWhile isBlank = c :: word ++ after :=
      List.dropWhile_cons_of_neg (by simp [solid c])
    rw [front,List.reverse_append,List.dropWhile_append_of_pos (by simpa using blankAfter),
      stops fun c member => solid c (List.mem_reverse.mp member),List.reverse_reverse]

end Text

/-- In letters of any case, between blanks, and before the parameters, if there are any. -/
def Names (contentType mediaType : String) : Prop :=
  ∃ before word after parameters, contentType.toList = before ++ (word ++ after) ++ parameters ∧
    (∀ c ∈ before, Text.isBlank c) ∧ word.map Char.toLower = mediaType.toList ∧ (∀ c ∈ after, Text.isBlank c) ∧
    (parameters = [] ∨ parameters.head? = some ';')

/-- The same content type in letters of another case, or with more parameters. -/
inductive Respelled : String → String → Prop where
  | letters {left right : String} (same : left.toList.map Char.toLower = right.toList.map Char.toLower) :
    Respelled left right
  | parameters (contentType more : String) : Respelled contentType (contentType ++ ";" ++ more)

namespace HttpReply

theorem essence_eq_iff {contentType mediaType : String}
    (solid : ∀ c ∈ mediaType.toList, c ≠ ';' ∧ Text.isBlank c = false) :
    essence contentType = mediaType ↔ Names contentType mediaType := by
  constructor
  · rintro rfl
    obtain ⟨before,after,same,blank,blankAfter⟩ := Text.exists_trim (contentType.toList.takeWhile (· != ';'))
    refine ⟨before,_,after,contentType.toList.dropWhile (· != ';'),?_,blank,String.toList_ofList.symm,blankAfter,?_⟩
    · rw [← same,List.takeWhile_append_dropWhile]
    · have stopped := @List.head?_dropWhile_not _ (· != ';') contentType.toList
      cases rest : contentType.toList.dropWhile (· != ';') with
      | nil => exact .inl rfl
      | cons c rest => simpa [rest] using stopped
  · rintro ⟨before,word,after,parameters,same,blank,lower,blankAfter,ends⟩
    have letter (c : Char) (member : c ∈ word) : c ≠ ';' ∧ Text.isBlank c = false := by
      obtain ⟨apart,solid⟩ := solid c.toLower (lower ▸ List.mem_map_of_mem member)
      refine ⟨?_,Text.isBlank_toLower c ▸ solid⟩
      rintro rfl
      exact apart rfl
    have apart (c : Char) (blank : Text.isBlank c) : (c != ';') = true := by
      rw [bne_iff_ne]
      rintro rfl
      contradiction
    have front : contentType.toList.takeWhile (· != ';') = before ++ (word ++ after) := by
      have inside : ∀ c ∈ before ++ (word ++ after), (c != ';') = true := by
        intro c member
        simp only [List.mem_append] at member
        rcases member with first | second | third
        · exact apart c (blank c first)
        · exact bne_iff_ne.mpr (letter c second).1
        · exact apart c (blankAfter c third)
      rw [same,List.takeWhile_append_of_pos inside]
      cases parameters with
      | nil => simp
      | cons c parameters =>
        have semicolon : c = ';' := by simpa using ends
        simp [semicolon]
    have trimmed : Text.trim (before ++ (word ++ after)) = word :=
      Text.trim_of_blanks blank (fun c member => (letter c member).2) blankAfter
    rw [essence,front,trimmed,lower,String.ofList_toList]

theorem essence_respelled {left right : String} (spelling : Respelled left right) : essence left = essence right := by
  cases spelling with
  | letters same =>
    have semicolon : (· != ';') ∘ Char.toLower = (· != ';') := by
      funext c
      rcases Text.toLower_cases c with same | ⟨i,rfl⟩
      · rw [Function.comp,same]
      · revert i
        decide
    have lower (contentType : String) : essence contentType =
        String.ofList (Text.trim ((contentType.toList.map Char.toLower).takeWhile (· != ';'))) := by
      rw [essence,List.takeWhile_map,semicolon,Text.trim_map_toLower]
    rw [lower,lower,same]
  | parameters more =>
    have cut : (left ++ ";" ++ more).toList.takeWhile (· != ';') = left.toList.takeWhile (· != ';') := by
      rw [String.toList_append,String.toList_append,List.append_assoc,List.takeWhile_append]
      split
      next whole =>
        have same := (List.takeWhile_prefix (· != ';')).eq_of_length whole
        simp [same]
      next => rfl
    rw [essence,essence,cut]

def jsonTypes : List String := ["application/json","application/problem+json"]

def DeclaresJson (reply : HttpReply) : Prop :=
  ∃ contentType ∈ reply.contentType, ∃ mediaType ∈ jsonTypes, Names contentType mediaType

theorem isJson_iff {reply : HttpReply} : reply.isJson ↔ reply.DeclaresJson := by
  have solid : ∀ mediaType ∈ jsonTypes, ∀ c ∈ mediaType.toList, c ≠ ';' ∧ Text.isBlank c = false := by
    have checked : jsonTypes.all fun mediaType => mediaType.toList.all fun c => c != ';' && !Text.isBlank c := by decide
    simpa only [List.all_eq_true,Bool.and_eq_true,bne_iff_ne,Bool.not_eq_true'] using checked
  have named (contentType : String) :
      jsonTypes.contains (essence contentType) ↔ ∃ mediaType ∈ jsonTypes, Names contentType mediaType := by
    rw [List.contains_iff_mem]
    constructor
    · exact fun member => ⟨_,member,(essence_eq_iff (solid _ member)).mp rfl⟩
    · rintro ⟨mediaType,member,names⟩
      rwa [(essence_eq_iff (solid mediaType member)).mpr names]
  unfold isJson DeclaresJson
  cases reply.contentType with
  | none => simp
  | some contentType =>
    simp only [Option.any_some,Option.mem_def,Option.some.injEq,exists_eq_left']
    exact named contentType

end HttpReply
end Jmap
