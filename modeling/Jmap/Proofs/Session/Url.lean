import Jmap.Proofs.Template
import Jmap.Proofs.Text.Percent
import Jmap.Session

/-! Values in the URLs of a session. A value stands in a URL without any character that could change
how the URL is read, and each value gives a URL of its own: where one value is replaced by
another, the URLs differ in length or in the first place where it stands. -/
namespace Jmap
open Text

section
variable {A B : Type} {f g : A → List B} {items : List A}

theorem length_flatMap_le (shorter : ∀ item ∈ items, (f item).length ≤ (g item).length) :
    (items.flatMap f).length ≤ (items.flatMap g).length := by
  induction items with
  | nil => exact Nat.le_refl 0
  | cons item items ih =>
    rw [List.forall_mem_cons] at shorter
    rw [List.flatMap_cons,List.flatMap_cons,List.length_append,List.length_append]
    exact Nat.add_le_add shorter.1 (ih shorter.2)

/-- Nothing can make up for a part that is shorter than the other in its place. -/
theorem eq_of_flatMap_eq (shorter : ∀ item ∈ items, (f item).length ≤ (g item).length)
    (same : items.flatMap f = items.flatMap g) : ∀ item ∈ items, f item = g item := by
  induction items with
  | nil => simp
  | cons item items ih =>
    rw [List.forall_mem_cons] at shorter ⊢
    rw [List.flatMap_cons,List.flatMap_cons] at same
    have total := congrArg List.length same
    have rest := length_flatMap_le shorter.2
    rw [List.length_append,List.length_append] at total
    obtain ⟨head,tail⟩ := List.append_inj same (by omega)
    exact ⟨head,ih shorter.2 tail⟩

end

namespace Template

/-- A name that has a value gives way to harmless text, from which the bytes of the value come back.
Everything else is kept. -/
inductive Filled (values : List (String × String)) : Piece → List Char → Prop where
  | value {name value : String} {part : List Char} (known : (name,value) ∈ values) (harmless : part ∈ escapedText)
    (bytes : percentDecode part = value.toUTF8.toList) : Filled values (.expression name.toList) part
  | kept {piece : Piece} (unnamed : ∀ entry ∈ values, piece ≠ .expression entry.1.toList) :
    Filled values piece piece.print

theorem Becomes.filled {values : List (String × String)} {piece : Piece} {part : List Char}
    (becomes : Becomes values piece part) : Filled values piece part := by
  cases becomes with
  | literal | unterminated => exact .kept fun _ _ same => nomatch same
  | @value before after name value split first =>
    have known : (String.ofList name,value) ∈ values := by simp [split]
    have filled := Filled.value known (percentEncode_mem value) (percentDecode_percentEncode value)
    rwa [String.toList_ofList] at filled
  | unknown absent =>
    refine .kept fun entry member same => absent entry member ?_
    rw [Piece.expression.inj same,String.ofList_toList]

theorem exists_filled (values : List (String × String)) (template : String) :
    ∃ parts, List.Forall₂ (Filled values) (pieces template) parts ∧
      expand values template = String.ofList parts.flatten := by
  obtain ⟨parts,becomes,expanded⟩ := exists_parts values template
  exact ⟨parts,becomes.imp fun _ _ => Becomes.filled,expanded⟩

section
variable {before after : List (String × String)} {name : String}

theorem lookup_replaced (fresh : ∀ entry ∈ before, entry.1 ≠ name) (value key : String) :
    (before ++ (name,value) :: after).lookup key = if key = name then some value else (before ++ after).lookup key := by
  rw [List.lookup_append,List.lookup_append,List.lookup_cons]
  by_cases same : key = name
  · have absent : before.lookup key = none :=
      List.lookup_eq_none_iff.mpr fun entry member => bne_iff_ne.mpr (same ▸ (fresh entry member).symm)
    rw [absent,if_pos same,beq_iff_eq.mpr same]
    rfl
  · rw [if_neg same,beq_false_of_ne same]

theorem expand_replaced (fresh : ∀ entry ∈ before, entry.1 ≠ name) (value : String) (piece : Piece) :
    piece.expand (before ++ (name,value) :: after) =
      if piece = .expression name.toList then percentEncode value else piece.expand (before ++ after) := by
  cases piece with
  | literal | unterminated => rfl
  | expression inside =>
    have named : Piece.expression inside = .expression name.toList ↔ String.ofList inside = name := by
      rw [Piece.expression.injEq,← String.ofList_inj,String.ofList_toList]
    rw [Piece.expand,fill,lookup_replaced fresh,Piece.expand,fill]
    by_cases same : String.ofList inside = name
    · rw [if_pos same,if_pos (named.mpr same)]
    · rw [if_neg same,if_neg (mt named.mp same)]

/-- By the lengths of what is put in, the shorter of the two values can be taken first. -/
theorem expand_injective (before after : List (String × String)) (fresh : ∀ entry ∈ before, entry.1 ≠ name)
    {template : String} (occurs : .expression name.toList ∈ pieces template) :
    Function.Injective fun value => expand (before ++ (name,value) :: after) template := by
  intro value other same
  simp only [expand_eq] at same
  wlog shorter : (percentEncode value).length ≤ (percentEncode other).length generalizing value other
  · exact (this same.symm (Nat.le_of_not_le shorter)).symm
  have each := eq_of_flatMap_eq ?_ (String.ofList_injective same) _ occurs
  · rw [expand_replaced fresh,expand_replaced fresh,if_pos rfl,if_pos rfl] at each
    exact percentEncode_injective each
  · intro piece _
    rw [expand_replaced fresh,expand_replaced fresh]
    split
    · exact shorter
    · exact Nat.le_refl _

end

end Template

theorem Id.text_injective : Function.Injective Id.text := fun ⟨_⟩ ⟨_⟩ => congrArg Id.mk

namespace Session
open Template

/-- Whatever the identifiers and names are, what stands for them in a URL is harmless and tells them
exactly; of two values of a variable that a template uses, each gives another URL. -/
theorem urls_of_values (session : Session) :
    (∀ account, ∃ parts,
      List.Forall₂ (Filled [("accountId",account.text)]) (pieces session.uploadUrl) parts ∧
        session.uploadUrlFor account = String.ofList parts.flatten) ∧
    (∀ account blob name contentType, ∃ parts,
      List.Forall₂ (Filled [("accountId",account.text),("blobId",blob.text),("name",name),("type",contentType)])
          (pieces session.downloadUrl) parts ∧
        session.downloadUrlFor account blob name contentType = String.ofList parts.flatten) ∧
    (.expression "accountId".toList ∈ pieces session.uploadUrl → Function.Injective session.uploadUrlFor) ∧
    ∀ account blob name contentType,
      (.expression "accountId".toList ∈ pieces session.downloadUrl →
        Function.Injective fun account => session.downloadUrlFor account blob name contentType) ∧
      (.expression "blobId".toList ∈ pieces session.downloadUrl →
        Function.Injective fun blob => session.downloadUrlFor account blob name contentType) ∧
      (.expression "name".toList ∈ pieces session.downloadUrl →
        Function.Injective fun name => session.downloadUrlFor account blob name contentType) ∧
      (.expression "type".toList ∈ pieces session.downloadUrl →
        Function.Injective fun contentType => session.downloadUrlFor account blob name contentType) := by
  refine ⟨fun _ => exists_filled _ _,fun _ _ _ _ => exists_filled _ _,?_,fun account blob name contentType => ⟨?_,?_,?_,?_⟩⟩
  · exact fun occurs => (expand_injective [] [] (by simp) occurs).comp Id.text_injective
  · intro occurs
    exact (expand_injective [] [("blobId",blob.text),("name",name),("type",contentType)] (by simp) occurs).comp
      Id.text_injective
  · intro occurs
    exact (expand_injective [("accountId",account.text)] [("name",name),("type",contentType)] (by simp) occurs).comp
      Id.text_injective
  · intro occurs
    exact expand_injective [("accountId",account.text),("blobId",blob.text)] [("type",contentType)] (by simp) occurs
  · intro occurs
    exact expand_injective [("accountId",account.text),("blobId",blob.text),("name",name)] [] (by simp) occurs

theorem urls_of_values_repeated :
    let session : Session :=
      {blank with uploadUrl := "\x7baccountId\x7da\x7baccountId\x7d", downloadUrl := "/\x7bname\x7d?accept=\x7btype\x7d"}
    session.uploadUrlFor ⟨"a"⟩ ≠ session.uploadUrlFor ⟨"aa"⟩ ∧
      session.downloadUrlFor ⟨""⟩ ⟨""⟩ "é/%2F" "" = "/%C3%A9%2F%252F?accept=" ∧
      session.downloadUrlFor ⟨""⟩ ⟨""⟩ "é/%2F" "" ≠ session.downloadUrlFor ⟨""⟩ ⟨""⟩ "é//" "" := by
  intro session
  obtain ⟨_,_,uploads,downloads⟩ := urls_of_values session
  obtain ⟨_,_,names,_⟩ := downloads ⟨""⟩ ⟨""⟩ "é/%2F" ""
  have encoded : session.downloadUrlFor ⟨""⟩ ⟨""⟩ "é/%2F" "" = "/%C3%A9%2F%252F?accept=" := by
    rw [downloadUrlFor,expand_eq]
    decide +kernel
  exact ⟨(uploads (by decide)).ne (by decide),encoded,(names (by decide)).ne (by decide)⟩

end Session
end Jmap
