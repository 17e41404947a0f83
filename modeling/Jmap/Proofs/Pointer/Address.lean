import Jmap.Proofs.Json.Decimals
import Jmap.Proofs.Pointer.Language
import Jmap.Proofs.Pointer.Walk

/-! Positions in a document and their addresses. A position is a sequence of keys and
indices, its address the path that these make, joined to the root. A path leads to a
value exactly if it is the address of a position of that value, and no other position in
the document has that address. -/
namespace Jmap
open Json Outcome

/-- From a value to one of the values in it. -/
inductive Step where
  | member (key : String)
  | item (index : Nat)

/-- The token of an index is its decimal spelling. -/
def Step.token : Step → String
  | .member key => key
  | .item index => toString index

namespace Json.Value

inductive Child : Value → Step → Value → Prop where
  | member {members : List (String × Value)} {key : String} {value : Value} (held : (key,value) ∈ members) :
    Child (.object members) (.member key) value
  | item {items : List Value} {index : Nat} {value : Value} (held : items[index]? = some value) :
    Child (.array items) (.item index) value

/-- The value that stands at a position of the document. -/
inductive At : Value → List Step → Value → Prop where
  | here (value : Value) : At value [] value
  | inside {value child target : Value} {step : Step} {position : List Step} (first : Child value step child)
    (later : At child position target) : At value (step :: position) target

/-- No object repeats a key, and no array is longer than a word can count. -/
inductive Regular : Value → Prop where
  | null : Regular .null
  | boolean (value : Bool) : Regular (.boolean value)
  | number (value : Number) : Regular (.number value)
  | string (text : String) : Regular (.string text)
  | array {items : List Value} (short : items.length < 2 ^ 64) (inside : ∀ item ∈ items, Regular item) :
    Regular (.array items)
  | object {members : List (String × Value)} (distinct : (members.map (·.1)).Nodup)
    (inside : ∀ member ∈ members, Regular member.2) : Regular (.object members)

variable {value : Value}

theorem Regular.child {child : Value} {step : Step} (regular : value.Regular) (first : value.Child step child) : child.Regular := by
  cases first with
  | member held =>
    cases regular with
    | object _ inside => exact inside _ held
  | item held =>
    cases regular with
    | array _ inside => exact inside _ (List.mem_of_getElem? held)

/-- Keys lead out of objects and indices out of arrays, so the token tells the step. -/
theorem Child.eq_of_token {one two : Step} {first second : Value} (regular : value.Regular)
    (left : value.Child one first) (right : value.Child two second) (same : one.token = two.token) :
    one = two ∧ first = second := by
  cases left with
  | @member members key _ held =>
    cases right with
    | @member _ other _ kept =>
      cases regular with
      | object distinct _ =>
        have keys : key = other := same
        subst keys
        have found := SortedMap.lookup_of_mem distinct held
        rw [SortedMap.lookup_of_mem distinct kept,Option.some.injEq] at found
        exact ⟨rfl,found.symm⟩
  | @item items index _ held =>
    cases right with
    | @item _ other _ kept =>
      have indices : index = other := toString_inj.mp same
      subst indices
      rw [kept,Option.some.injEq] at held
      exact ⟨rfl,held.symm⟩

theorem At.eq_of_tokens {one two : List Step} {first second : Value} (regular : value.Regular)
    (left : value.At one first) (right : value.At two second) (same : one.map Step.token = two.map Step.token) :
    one = two := by
  induction left generalizing two with
  | here =>
    cases right with
    | here => rfl
    | inside => contradiction
  | inside outer _ ih =>
    cases right with
    | here => contradiction
    | inside start later =>
      rw [List.map_cons,List.map_cons,List.cons.injEq] at same
      obtain ⟨rfl,rfl⟩ := outer.eq_of_token regular start same.1
      rw [ih (regular.child outer) later same.2]

end Json.Value

namespace Pointer

/-- An index is read from its decimal spelling and from nothing else. -/
theorem index?_eq_some_iff {token : String} {index : Nat} :
    index? token = some index ↔ token = toString index ∧ index ≤ wordMax := by
  rw [Nat.toString_eq_ofList_toDigits]
  constructor
  · intro read
    obtain ⟨⟨whole,rest⟩,scanned,read⟩ := Option.bind_eq_some_iff.mp read
    dsimp only at read
    split at read
    next bounded =>
      cases read
      obtain ⟨empty,fits⟩ := bounded
      have source := NumberLiteral.scanWhole_source scanned
      rw [List.isEmpty_iff.mp empty,List.append_nil,whole.print_eq_toDigits] at source
      exact ⟨by rw [← source,String.ofList_toList],fits⟩
    next => contradiction
  · rintro ⟨rfl,fits⟩
    obtain ⟨whole,scanned,rfl⟩ := NumberLiteral.scanWhole_toDigits index
    rw [index?,String.toList_ofList,scanned]
    exact if_pos ⟨rfl,fits⟩

/-- The keys and indices are joined to the root one after the other. -/
def address (position : List Step) : String :=
  (position.foldl (fun pointer step => pointer.join step.token) root).text

theorem address_eq (position : List Step) : address position = (ofTokens (position.map Step.token)).text := by
  rw [address,← foldl_join,List.foldl_map]

theorem ofText?_address (position : List Step) :
    ofText? (address position) = some (ofTokens (position.map Step.token)) := by
  rw [address_eq]
  exact ofText?_text _

theorem address_of_ofText? {path : String} {pointer : Pointer} (parsed : ofText? path = some pointer)
    {position : List Step} (tokens : position.map Step.token = pointer.tokens) : path = address position := by
  obtain ⟨kept,spelled⟩ := of_ofText? parsed
  rw [address_eq,tokens,← spelled,kept]

end Pointer

namespace Pointable
variable {value child : Value} {step : Step}

theorem child?_of_child (regular : value.Regular) (first : value.Child step child) :
    (Pointable.json value).child? step.token = some (.json child) := by
  cases first with
  | @member members key _ held =>
    cases regular with
    | object distinct _ =>
      have found := SortedMap.lookup_of_mem distinct held
      show Pointable.json <$> members.lookup key = _
      rw [found]
      rfl
  | @item items index _ held =>
    cases regular with
    | array short _ =>
      obtain ⟨inside,_⟩ := List.getElem?_eq_some_iff.mp held
      have fits : index ≤ wordMax := by
        unfold wordMax
        omega
      have read := Pointer.index?_eq_some_iff.mpr ⟨rfl,fits⟩
      show Pointable.json <$> item? items (toString index) = _
      rw [item?,read]
      exact congrArg (Pointable.json <$> ·) held

theorem exists_child_of_child? {token : String} {place : Pointable}
    (found : (Pointable.json value).child? token = some place) :
    ∃ step child, value.Child step child ∧ step.token = token ∧ place = .json child := by
  cases value with
  | object members =>
    obtain ⟨child,held,rfl⟩ := Option.map_eq_some_iff.mp found
    obtain ⟨before,after,split,_⟩ := List.lookup_eq_some_iff.mp held
    exact ⟨.member token,child,.member (by simp [split]),rfl,rfl⟩
  | array items =>
    obtain ⟨child,picked,rfl⟩ := Option.map_eq_some_iff.mp found
    obtain ⟨index,read,held⟩ := Option.bind_eq_some_iff.mp picked
    obtain ⟨rfl,_⟩ := Pointer.index?_eq_some_iff.mp read
    exact ⟨.item index,child,.item held,rfl,rfl⟩
  | _ => contradiction

theorem walk?_of_at {position : List Step} {target : Value} (regular : value.Regular)
    (reached : value.At position target) :
    (Pointable.json value).walk? (position.map Step.token) = some (.json target) := by
  induction reached with
  | here => rfl
  | inside first _ ih =>
    rw [walk?,List.map_cons,List.foldlM_cons,child?_of_child regular first]
    exact ih (regular.child first)

theorem exists_at_of_walk? {tokens : List String} {place : Pointable}
    (walked : (Pointable.json value).walk? tokens = some place) :
    ∃ position target, value.At position target ∧ position.map Step.token = tokens ∧ place = .json target := by
  induction tokens generalizing value with
  | nil =>
    cases walked
    exact ⟨[],value,.here value,rfl,rfl⟩
  | cons token tokens ih =>
    obtain ⟨next,found,walked⟩ := Option.bind_eq_some_iff.mp walked
    obtain ⟨step,child,first,rfl,rfl⟩ := exists_child_of_child? found
    obtain ⟨position,target,later,rfl,rfl⟩ := ih walked
    exact ⟨step :: position,target,.inside first later,rfl,rfl⟩

theorem get_json_eq_ok_iff {document : Value} (regular : document.Regular) {path : String} {value : Value} :
    (Pointable.json document).get path = .ok value ↔
      ∃ position, document.At position value ∧ path = Pointer.address position := by
  rw [get_eq_ok_iff]
  constructor
  · rintro ⟨pointer,place,parsed,walked,shown⟩
    obtain ⟨position,target,reached,tokens,rfl⟩ := exists_at_of_walk? walked
    cases shown
    exact ⟨position,reached,Pointer.address_of_ofText? parsed tokens⟩
  · rintro ⟨position,reached,rfl⟩
    exact ⟨_,.json value,Pointer.ofText?_address position,walk?_of_at regular reached,rfl⟩

/-- Each value in a document is found at the address of its position. A path at which a
value is found is the address of one position, at which that value stands. Any other path
has nothing, and what is no path is refused whatever it should be looked up in. -/
theorem address_of_value {document : Value} (regular : document.Regular) :
    (∀ position value, document.At position value →
      (Pointable.json document).get (Pointer.address position) = .ok value) ∧
    (∀ path value, (Pointable.json document).get path = .ok value →
      ∃ position, document.At position value ∧ path = Pointer.address position ∧
        ∀ other held, document.At other held → path = Pointer.address other → other = position) ∧
    (∀ path, path.toList ∈ Pointer.path →
      (∀ position value, document.At position value → path ≠ Pointer.address position) →
      (Pointable.json document).get path = .error (.noPointerValue path)) ∧
    ∀ path, path.toList ∉ Pointer.path → ∀ place : Pointable,
      place.get path = .error (.invalid (.invalidPointer path)) := by
  refine ⟨?_,?_,?_,?_⟩
  · exact fun position value reached => (get_json_eq_ok_iff regular).mpr ⟨position,reached,rfl⟩
  · intro path value found
    obtain ⟨position,reached,rfl⟩ := (get_json_eq_ok_iff regular).mp found
    refine ⟨position,reached,rfl,fun other held there same => ?_⟩
    have parsed := Pointer.ofText?_address position
    rw [same,Pointer.ofText?_address other,Option.some.injEq] at parsed
    exact there.eq_of_tokens regular reached (congrArg Pointer.tokens parsed)
  · intro path inside nowhere
    cases parsed : Pointer.ofText? path with
    | none => exact absurd inside (Pointer.ofText?_eq_none_iff.mp parsed)
    | some pointer =>
      rw [get_of_pointer parsed,(Pointer.of_ofText? parsed).1]
      cases walked : (Pointable.json document).walk? pointer.tokens with
      | none => rfl
      | some place =>
        obtain ⟨position,target,reached,tokens,_⟩ := exists_at_of_walk? walked
        exact absurd (Pointer.address_of_ofText? parsed tokens) (nowhere position target reached)
  · intro path outside place
    exact get_of_no_pointer (Pointer.ofText?_eq_none_iff.mpr outside) place

theorem address_of_value_nested :
    let document : Value := .object [("0",.array [.boolean true,.object [("",.null)]]),("a/b",.string "x")]
    let position : List Step := [.member "0",.item 1,.member ""]
    document.Regular ∧ document.At position .null ∧ Pointer.address position = "/0/1/" ∧
      (Pointable.json document).get "/0/1/" = .ok .null ∧
      (∃ place, document.At place (.string "x") ∧ "/a~1b" = Pointer.address place) ∧
      (Pointable.json document).get "/0/01" = .error (.noPointerValue "/0/01") ∧
      (Pointable.json document).get "/~2" = .error (.invalid (.invalidPointer "/~2")) := by
  intro document position
  have regular : document.Regular := by
    refine .object (by decide) ?_
    simp only [List.forall_mem_cons]
    refine ⟨.array (by decide) ?_,.string _,by simp⟩
    simp only [List.forall_mem_cons]
    exact ⟨.boolean _,.object (by decide) (by simp [Value.Regular.null]),by simp⟩
  have reached : document.At position .null :=
    .inside (.member (.head _)) (.inside (.item rfl) (.inside (.member (.head _)) (.here _)))
  have spelled : Pointer.address position = "/0/1/" := by decide
  obtain ⟨found,placed,missing,refused⟩ := address_of_value regular
  have nowhere : ∀ place value, document.At place value → "/0/01" ≠ Pointer.address place := by
    intro place value there same
    have value' := found place value there
    rw [← same] at value'
    exact nomatch value'
  have inside : "/0/01".toList ∈ Pointer.path :=
    Pointer.mem_path_iff.mpr ⟨["0","01"],Pointer.segmented_iff.mpr (by decide)⟩
  obtain ⟨place,there,same,_⟩ := placed "/a~1b" (.string "x") rfl
  have outside : "/~2".toList ∉ Pointer.path := Pointer.ofText?_eq_none_iff.mp rfl
  exact ⟨regular,reached,spelled,spelled ▸ found position .null reached,⟨place,there,same⟩,
    missing "/0/01" inside nowhere,refused "/~2" outside _⟩

end Pointable
end Jmap
